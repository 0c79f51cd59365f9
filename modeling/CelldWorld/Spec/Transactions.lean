import CelldWorld.CellOps
import CelldWorld.StoreKeys
import CelldWorld.Tombstone

namespace CelldWorld

/-- The keys of entities and markers that outlive the run only to be swept. -/
def StoreKey.isDerived : StoreKey → Bool
  | .hook _ | .hookCreated _ | .hookMarker _ | .wait _ => true
  | _ => false

/-- The keys that the pages before payload deletion delete, of an active run as well. -/
def StoreKey.isIndexed : StoreKey → Bool
  | .hookMarker _ | .queuePayload _ => true
  | _ => false

/-- The phase that follows in the retention cleanup. -/
def CleanupPhase.next : CleanupPhase → CleanupPhase
  | .retained => .index
  | .index => .streams
  | .streams => .queues
  | .queues => .payload
  | .payload | .tombstoned => .tombstoned

/-- What the record has counted: streams, queue payloads and payload keys. -/
def CleanupRecord.counts (record : CleanupRecord) : Nat × Nat × Nat :=
  (record.deletedStreams, record.deletedQueuePayloads, record.deletedPayloadKeys)

namespace CleanupPage

/-- The phase whose page this is. -/
def phase : CleanupPage → CleanupPhase
  | .start => .retained
  | .index .. => .index
  | .streams .. => .streams
  | .queues .. => .queues
  | .payload => .payload

/-- What a page makes of the cleanup record, its generation apart. -/
def update (page : CleanupPage) (record : CleanupRecord) : CleanupRecord :=
  match page with
  | .start => { record with phase := .index }
  | .index _ more => { record with phase := if more then .index else .streams }
  | .streams deleted done =>
    { record with deletedStreams := deleted, phase := if done then .queues else .streams }
  | .queues page more => { record with
      deletedQueuePayloads := record.deletedQueuePayloads + page.length
      phase := if more then .queues else .payload }
  | .payload => record

/-- The keys that a page deletes. -/
def keys : CleanupPage → List StoreKey
  | .index markers _ => markers.map .hookMarker
  | .queues page _ => page.map .queuePayload
  | .start | .streams .. | .payload => []

variable {page : CleanupPage} {record : CleanupRecord} {key : StoreKey}

theorem keys_indexed (member : key ∈ page.keys) : key.isIndexed = true := by
  cases page with
  | index markers more =>
    obtain ⟨marker, -, rfl⟩ := List.mem_map.mp member
    rfl
  | queues ids more =>
    obtain ⟨messageId, -, rfl⟩ := List.mem_map.mp member
    rfl
  | _ => cases member

@[simp] theorem update_dueAt : (page.update record).dueAt = record.dueAt := by
  cases page <;> rfl

/-- The pages before payload deletion belong to the phases before it. -/
theorem phase_early (paged : page ≠ .payload) : page.phase ≠ .payload ∧ page.phase ≠ .tombstoned := by
  cases page with
  | payload => exact absurd rfl paged
  | _ => exact ⟨nofun, nofun⟩

theorem start_of_retained (retained : page.phase = .retained) : page = .start := by
  cases page with
  | start => rfl
  | _ => cases retained

/-- A page leaves the phase of its record or enters the next one. -/
theorem update_phase (same : record.phase = page.phase) :
    (page.update record).phase = record.phase ∨ (page.update record).phase = record.phase.next := by
  rw [same]
  cases page with
  | start => exact .inr rfl
  | index markers more => cases more <;> simp [update, phase, CleanupPhase.next]
  | streams deleted done => cases done <;> simp [update, phase, CleanupPhase.next]
  | queues ids more => cases more <;> simp [update, phase, CleanupPhase.next]
  | payload => exact .inl same

/-- After any page but a payload page the run is expired. -/
theorem update_left (paged : page ≠ .payload) : (page.update record).phase ≠ .retained := by
  cases page with
  | start => nofun
  | index markers more => cases more <;> nofun
  | streams deleted done => cases done <;> nofun
  | queues ids more => cases more <;> nofun
  | payload => exact absurd rfl paged

end CleanupPage

namespace WorkflowRunDO

/-- The store after a page before payload deletion has committed. -/
def pageCommit (page : CleanupPage) (record : CleanupRecord) (alarm : Nat) (store : RunStore) : RunStore :=
  { store.deleteAll page.keys with
    cleanup := some { page.update record with
      generation := record.generation + 1, attempts := 0, lastError := none }
    alarm := some alarm }

end WorkflowRunDO

/-- What the transaction of a payload page does. -/
inductive BatchStep (now : Nat) (before after : RunStore) : Prop
  | idle (same : after = before) (other : before.cleanup.all (·.phase ≠ .payload))
  | batched {record : CleanupRecord} {keys : List StoreKey} (stored : before.cleanup = some record)
      (payload : record.phase = .payload) (nodup : keys.Nodup)
      (present : ∀ key ∈ keys, key.isPayload = true ∧ before.has key = true)
      (batch : after = { before.deleteAll keys with
        tombstone := some (cleanupTombstone record now)
        cleanup := some { record with
          deletedPayloadKeys := record.deletedPayloadKeys + keys.length
          generation := record.generation + 1
          lastError := none }
        alarm := some (now + 1) })
  | finished {record : CleanupRecord} (stored : before.cleanup = some record) (payload : record.phase = .payload)
      (batch : after = { before with
        tombstone := some (cleanupTombstone
          { record with
            phase := .tombstoned, generation := record.generation + 1, attempts := 0
            lastError := none, tombstonedAt := some now } now)
        cleanup := none
        alarm := none })
      (bare : after.Bare)

/-- What the transaction of a pass does that read the record `expected` and commits `page`. -/
inductive PageStep (now : Nat) (expected : CleanupRecord) (page : CleanupPage) (before after : RunStore) : Prop
  | stale (same : ∃ alarm, after = { before with alarm }) (other : expected.phase ≠ page.phase ∨ page = .start ∨
      WorkflowRunDO.sameCleanup before expected = false)
  | batch (payload : page = .payload) (phase : expected.phase = .payload)
      (deletes : BatchStep now before after)
  | committed {record : CleanupRecord} {alarm : Nat} (paged : page ≠ .payload)
      (phase : expected.phase = page.phase) (stored : before.cleanup = some record)
      (samePhase : record.phase = expected.phase) (sameGeneration : record.generation = expected.generation)
      (commit : after = WorkflowRunDO.pageCommit page record alarm before)
      (started : page = .start → expected.dueAt ≤ now)

/-- The transactions that decide whether a claim has created its hook. -/
def CellOp.resolvesClaim : CellOp → Bool
  | .resolveHookTokenClaim .. | .resolveExpiredHookClaim .. | .resolveForcedHookClaim _ => true
  | _ => false

/-- What one transaction of a run cell does to its store. -/
inductive CellStep (W : WorldContract) (runId : String) (now : Nat) (store : RunStore) :
    CellOp → RunStore → Prop
  | idle {op : CellOp} : CellStep W runId now store op store
  | applied {request : ApplyEventRequest} {outcome : ApplyEventOutcome} {after : RunStore}
      (call : WorkflowRunDO.applyEvent W runId now request store = .ok (outcome, after)) :
      CellStep W runId now store (.applyEvent request) after
  | disposed {hookId token : String} {claimedBy : HookTokenOwner} {journaled : Bool} {after : RunStore}
      (call : WorkflowRunDO.forceDisposeHook W runId now hookId token claimedBy store = .ok (journaled, after)) :
      CellStep W runId now store (.forceDisposeHook hookId token claimedBy) after
  | queued {op : QueueOp} : CellStep W runId now store (.queue op) (op.run now store)
  | fenced {op : CellOp} {hookClaimCancelled : KeyMap HookClaimCancellation}
      (resolves : op.resolvesClaim = true) (unexpired : store.tombstoneFrom now = none)
      (fences : ∀ claimId, claimId ∈ store.hookClaimCancelled → claimId ∈ hookClaimCancelled) :
      CellStep W runId now store op { store with hookClaimCancelled }
  | scheduled {request : ScheduleCleanupRequest} {run : WorkflowRun} {dueAt : Nat}
      (absent : store.cleanup = none) (alive : store.tombstone = none) (current : store.run = some run)
      (ended : isTerminalWorkflowRunStatus run.status = true)
      (deadline : dueAt = run.completedAt.getD 0 + request.retentionMs)
      (valid : W.workflowRunSchema { run with expiredAt := some dueAt } = true) :
      CellStep W runId now store (.scheduleCleanup request)
        { store with
          run := some { run with expiredAt := some dueAt }
          cleanup := some (cleanupRecord { run with expiredAt := some dueAt } dueAt .manual)
          alarm := some (if store.terminalCleanup.isSome ∨ dueAt ≤ now then now + 1 else dueAt) }
  | checked {request : EnforceRetentionRequest} {run : WorkflowRun} (alive : store.tombstone = none)
      (current : store.run = some run)
      (unchanged : WorkflowRunDO.maximumAgeRecord run (run.createdAt + request.retentionMs) store.cleanup = none) :
      CellStep W runId now store (.enforceRetention request) { store with alarm := some (now + 1) }
  | aged {request : EnforceRetentionRequest} {run : WorkflowRun} {dueAt : Nat} {next : CleanupRecord}
      (alive : store.tombstone = none) (current : store.run = some run)
      (deadline : dueAt = run.createdAt + request.retentionMs)
      (changes : WorkflowRunDO.maximumAgeRecord run dueAt store.cleanup = some next)
      (valid : W.workflowRunSchema { run with expiredAt := some dueAt } = true) :
      CellStep W runId now store (.enforceRetention request)
        { store with
          run := some { run with expiredAt := some dueAt }
          cleanup := some next
          alarm := some (now + 1) }
  | due {record : CleanupRecord} (stored : store.cleanup = some record)
      (unfinished : record.phase ≠ .tombstoned)
      (valid : ∀ run, store.run = some run → W.workflowRunSchema { run with expiredAt := some now } = true) :
      CellStep W runId now store .expireCleanupNow
        { store with
          run := store.run.map fun run => { run with expiredAt := some now }
          cleanup := some { record with dueAt := now, generation := record.generation + 1 }
          alarm := some (now + 1) }
  | rearmed {alarm : Option Nat} (rearms : WorkflowRunDO.rearmCleanup now store = { store with alarm }) :
      CellStep W runId now store .rearmCleanup { store with alarm }
  | paged {expected : CleanupRecord} {page : CleanupPage} {after : RunStore}
      (step : PageStep now expected page store after) :
      CellStep W runId now store (.executeCleanup expected page) after
  | failed {error : String} {expected record : CleanupRecord} (stored : store.cleanup = some record)
      (unfinished : record.phase ≠ .tombstoned) :
      CellStep W runId now store (.recordCleanupFailure error expected)
        { store with
          cleanup := some
            { record with
              generation := record.generation + 1
              attempts := record.attempts + 1
              lastError := some error
              lastAttemptAt := some now }
          alarm := some (now + WorkflowRunDO.cleanupRetryDelay (record.attempts + 1)) }
  | swept {expected : TerminalCleanupRecord} {page : TerminalCleanupPage} {keys : List StoreKey}
      {terminalCleanup : Option TerminalCleanupRecord} {alarm : Option Nat}
      (held : store.terminalCleanup.isSome) (derived : ∀ key ∈ keys, key.isDerived = true) :
      CellStep W runId now store (.executeTerminalCleanup expected page)
        { store.deleteAll keys with terminalCleanup, alarm }
  | terminalFailed {error : String} {expected record : TerminalCleanupRecord}
      (held : store.terminalCleanup = some record) :
      CellStep W runId now store (.recordTerminalCleanupFailure error expected)
        { store with
          terminalCleanup := some
            { record with
              generation := record.generation + 1
              attempts := record.attempts + 1
              lastError := some error
              lastAttemptAt := some now }
          alarm := some (now + WorkflowRunDO.cleanupRetryDelay (record.attempts + 1)) }

/-- What a cell writes around the events that it has applied, and the success that it answers: the
claim scope of a new run, the markers of its hooks, and for an ended run its terminal cleanup
and its deadline. -/
inductive Committed (W : WorldContract) (now : Nat) (success : ApplyEventSuccess) (store : RunStore) :
    ApplyEventSuccess → RunStore → Prop
  | active {queueClaimScope : Option String} {hookMarkers : ReferenceMap HookIndexReference}
      (scope : queueClaimScope = if success.runCreated.isSome then some "run" else store.queueClaimScope) :
      Committed W now success store success { store with queueClaimScope, hookMarkers }
  | ended {queueClaimScope : Option String} {hookMarkers : ReferenceMap HookIndexReference} {run : WorkflowRun}
      {terminalCleanup : Option TerminalCleanupRecord}
      (scope : queueClaimScope = if success.runCreated.isSome then some "run" else store.queueClaimScope)
      (carried : success.run = some run) (terminal : isTerminalWorkflowRunStatus run.status = true) :
      Committed W now success store success
        { store with queueClaimScope, hookMarkers, terminalCleanup, alarm := some (now + 1) }
  | retained {queueClaimScope : Option String} {hookMarkers : ReferenceMap HookIndexReference}
      {run : WorkflowRun} {terminalCleanup : Option TerminalCleanupRecord} {dueAt : Nat}
      (scope : queueClaimScope = if success.runCreated.isSome then some "run" else store.queueClaimScope)
      (carried : success.run = some run) (terminal : isTerminalWorkflowRunStatus run.status = true)
      (absent : store.cleanup = none)
      (valid : W.workflowRunSchema { run with expiredAt := some dueAt } = true) :
      Committed W now success store { success with run := some { run with expiredAt := some dueAt } }
        { store with
          queueClaimScope
          hookMarkers
          run := some { run with expiredAt := some dueAt }
          cleanup := some (cleanupRecord { run with expiredAt := some dueAt } dueAt .terminalRetention)
          terminalCleanup
          alarm := some (now + 1) }

variable {W : WorldContract} {runId : String} {now : Nat} {store after : RunStore}

/-- The pages of both cleanups keep the run, its cleanup record and its tombstone. -/
theorem RunStore.deleteAll_lifecycle {keys : List StoreKey}
    (others : ∀ key ∈ keys, key.isIndexed = true ∨ key.isDerived = true) :
    (store.deleteAll keys).run = store.run ∧ (store.deleteAll keys).cleanup = store.cleanup ∧
      (store.deleteAll keys).tombstone = store.tombstone := by
  induction keys generalizing store with
  | nil => exact ⟨rfl, rfl, rfl⟩
  | cons key keys ih =>
    have rest := @ih (store.delete key) fun other member => others other (.tail _ member)
    have first := others key (.head _)
    cases key <;> simp only [StoreKey.isIndexed, StoreKey.isDerived, Bool.false_eq_true, or_false] at first <;>
      exact rest

theorem EventTxn.persist_eq {txn : EventTxn} : txn.persist txn.store.eventSequence = txn.commit := by
  unfold EventTxn.persist EventTxn.commit
  split
  · rename_i same
    rw [same]
  · rfl

namespace WorkflowRunDO

theorem retentionDeadline_ok {baseMs retentionMs dueAt : Nat} {runId : String} :
    retentionDeadline baseMs retentionMs runId = .ok dueAt ↔
      baseMs + retentionMs ≤ MAX_DATE_MS ∧ dueAt = baseMs + retentionMs := by
  unfold retentionDeadline MAX_SAFE_INTEGER MAX_DATE_MS
  split
  · rename_i fits
    exact ⟨fun same => ⟨fits.2, (Except.ok.inj same).symm⟩, fun same => same.2 ▸ rfl⟩
  · rename_i unfit
    exact ⟨nofun, fun same => absurd ⟨by omega, same.1⟩ unfit⟩

/-- The retention markers of hooks are all that `putHookReferences` writes. -/
theorem putHookReferences_markers {success : ApplyEventSuccess} {store : RunStore} :
    ∃ hookMarkers, putHookReferences success store = { store with hookMarkers } := by
  unfold putHookReferences
  generalize (success.hookToIndex.map fun hook => (⟨hook.hookId, hook.token⟩ : HookIndexReference)).toList ++
    success.releasedHooks = references
  simp only
  induction references generalizing store with
  | nil => exact ⟨store.hookMarkers, rfl⟩
  | cons reference references ih => exact ih

theorem recordClaimScope_eq {success : ApplyEventSuccess} : recordClaimScope success store =
    { store with
      queueClaimScope := if success.runCreated.isSome then some "run" else store.queueClaimScope } := by
  unfold recordClaimScope
  split <;> rfl

theorem startTerminalCleanup_ok {success : ApplyEventSuccess} :
    ∃ terminalCleanup alarm, startTerminalCleanup now success store = { store with terminalCleanup, alarm } := by
  unfold startTerminalCleanup
  split
  · exact ⟨store.terminalCleanup, store.alarm, rfl⟩
  split
  · exact ⟨_, _, rfl⟩
  · exact ⟨store.terminalCleanup, store.alarm, rfl⟩

/-- The store in which a terminal run has got its deadline. -/
def retained (run : WorkflowRun) (dueAt : Nat) (store : RunStore) : RunStore :=
  { store with
    run := some { run with expiredAt := some dueAt }
    cleanup := some (cleanupRecord { run with expiredAt := some dueAt } dueAt .terminalRetention)
    alarm := some dueAt }

/-- No terminal run needs a deadline, or one within the range of dates is recorded. -/
theorem scheduleTerminalRetention_ok {retentionMs : Nat} {success success' : ApplyEventSuccess}
    (schedule : scheduleTerminalRetention W retentionMs success store = .ok (success', after)) :
    (success' = success ∧ after = store ∧
        ∀ run, success.run = some run → isTerminalWorkflowRunStatus run.status = true →
          retentionMs = 0 ∨ store.cleanup.isSome) ∨
      ∃ run dueAt, success.run = some run ∧ isTerminalWorkflowRunStatus run.status = true ∧
        store.cleanup = none ∧ dueAt = run.completedAt.getD 0 + retentionMs ∧ dueAt ≤ MAX_DATE_MS ∧
        W.workflowRunSchema { run with expiredAt := some dueAt } = true ∧
        success' = { success with run := some { run with expiredAt := some dueAt } } ∧
        after = retained run dueAt store := by
  unfold scheduleTerminalRetention at schedule
  split at schedule
  · rename_i absent
    obtain ⟨rfl, rfl⟩ := Prod.mk.inj (Except.ok.inj schedule)
    refine .inl ⟨rfl, rfl, fun run carried => ?_⟩
    rw [absent] at carried
    cases carried
  rename_i run carried
  split at schedule
  · rename_i due
    obtain ⟨dueAt, deadline, schedule⟩ := bind_ok.mp schedule
    obtain ⟨fits, same⟩ := retentionDeadline_ok.mp deadline
    obtain ⟨expired, parsed, schedule⟩ := bind_ok.mp schedule
    obtain ⟨valid, rfl⟩ := parseWith_ok.mp parsed
    obtain ⟨rfl, rfl⟩ := Prod.mk.inj (Except.ok.inj schedule)
    exact .inr ⟨run, dueAt, carried, due.2.1, due.2.2, same, same ▸ fits, valid, rfl, rfl⟩
  · rename_i idle
    obtain ⟨rfl, rfl⟩ := Prod.mk.inj (Except.ok.inj schedule)
    refine .inl ⟨rfl, rfl, fun other same terminal => ?_⟩
    obtain rfl := Option.some.inj (carried.symm.trans same)
    cases held : store.cleanup with
    | none => exact .inl (by simpa [terminal, held] using idle)
    | some record => exact .inr rfl

/-- What a successful application commits, written out. -/
theorem commitOutcome_ok {request : ApplyEventRequest} {success : ApplyEventSuccess} {txn : EventTxn}
    {outcome : ApplyEventOutcome}
    (commit : commitOutcome W request now txn.store.eventSequence success txn = .ok (outcome, after)) :
    ∃ scheduled, Committed W now success txn.commit scheduled after ∧
      outcome = finalizeEventPage W after (.ok (setPublicationDeadline now scheduled)) request.params := by
  unfold commitOutcome at commit
  rw [EventTxn.persist_eq] at commit
  obtain ⟨⟨scheduled, stored⟩, schedule, commit⟩ := bind_ok.mp commit
  obtain ⟨rfl, rfl⟩ := Prod.mk.inj (Except.ok.inj commit)
  refine ⟨scheduled, ?_, rfl⟩
  obtain ⟨hookMarkers, marked⟩ := @putHookReferences_markers success (recordClaimScope success txn.commit)
  rw [marked, recordClaimScope_eq] at schedule
  clear marked
  unfold startTerminalCleanup
  rcases scheduleTerminalRetention_ok schedule with ⟨rfl, rfl, -⟩ |
    ⟨run, dueAt, carried, terminal, absent, -, -, valid, rfl, rfl⟩
  · split
    · exact .active rfl
    rename_i run carried
    split
    · rename_i terminal
      exact .ended rfl carried terminal
    · exact .active rfl
  · simp only [terminal, if_true]
    exact .retained rfl carried terminal absent valid

theorem resolveHookTokenClaim_step {hookId token claimId : String} :
    CellStep W runId now store (.resolveHookTokenClaim hookId token claimId)
      (resolveHookTokenClaim now hookId token claimId store).2 := by
  unfold resolveHookTokenClaim
  split
  · exact .idle
  rename_i unexpired
  split
  · exact .idle
  · exact .fenced rfl (by simpa using unexpired) fun _ fenced => Std.ExtTreeMap.mem_insert.mpr (.inr fenced)

theorem fenceHookClaim_step {op : CellOp} {claimId : String} {cancellation : HookClaimCancellation}
    (resolves : op.resolvesClaim = true) (unexpired : ¬ (store.tombstoneFrom now).isSome = true) :
    CellStep W runId now store op (fenceHookClaim store claimId cancellation) :=
  .fenced resolves (by simpa using unexpired) fun _ fenced =>
    Std.ExtTreeMap.mem_insert.mpr (.inr (Std.ExtTreeMap.mem_insert.mpr (.inr fenced)))

theorem resolveExpiredHookClaim_step {hookId claimId : String} {token : Option String} :
    CellStep W runId now store (.resolveExpiredHookClaim hookId claimId token)
      (transaction store (resolveExpiredHookClaim now hookId claimId token store)) := by
  unfold resolveExpiredHookClaim
  split
  · exact .idle
  split
  · exact .idle
  rename_i unexpired
  split
  · exact .idle
  split
  · exact .idle
  · exact fenceHookClaim_step rfl unexpired

theorem resolveForcedHookClaim_step {request : ForcedClaimRequest} :
    CellStep W runId now store (.resolveForcedHookClaim request)
      (transaction store (resolveForcedHookClaim now request store)) := by
  unfold resolveForcedHookClaim
  split
  · exact .idle
  split
  · exact .idle
  rename_i unexpired
  unfold CelldWorld.resolveForcedHookClaim transaction
  simp only
  split
  · exact .idle
  · exact fenceHookClaim_step rfl unexpired

theorem scheduleCleanup_step {request : ScheduleCleanupRequest} {answer : Option CleanupRecord}
    (run : scheduleCleanup W now request store = .ok (answer, after)) :
    CellStep W runId now store (.scheduleCleanup request) after := by
  unfold scheduleCleanup at run
  obtain ⟨_, -, run⟩ := bind_ok.mp run
  split at run
  · cases run
    exact .idle
  · cases run
    exact .idle
  · cases run
    exact .idle
  rename_i current absent alive stored
  split at run
  · cases run
    exact .idle
  rename_i ended
  obtain ⟨dueAt, deadline, run⟩ := bind_ok.mp run
  obtain ⟨expired, parsed, run⟩ := bind_ok.mp run
  obtain ⟨valid, rfl⟩ := parseWith_ok.mp parsed
  cases run
  exact .scheduled absent alive stored (by simpa using ended) (retentionDeadline_ok.mp deadline).2 valid

theorem enforceRetention_step {request : EnforceRetentionRequest} {result : EnforceRetentionResult}
    (run : enforceRetention W now request store = .ok (result, after)) :
    CellStep W runId now store (.enforceRetention request) after := by
  unfold enforceRetention at run
  obtain ⟨_, -, run⟩ := bind_ok.mp run
  split at run
  · cases run
  split at run
  · cases run
    exact .idle
  · cases run
    exact .idle
  rename_i alive current
  obtain ⟨dueAt, deadline, run⟩ := bind_ok.mp run
  obtain ⟨-, rfl⟩ := retentionDeadline_ok.mp deadline
  split at run
  · cases run
    exact .idle
  obtain ⟨⟨cleanup, stored⟩, age, run⟩ := bind_ok.mp run
  cases run
  unfold applyMaximumAge at age
  split at age
  · rename_i unchanged
    cases age
    exact .checked alive current unchanged
  · rename_i next changes
    obtain ⟨expired, parsed, age⟩ := bind_ok.mp age
    obtain ⟨valid, rfl⟩ := parseWith_ok.mp parsed
    cases age
    exact .aged alive current rfl changes valid

/-- The first record of a run, or an earlier deadline of a retained one. -/
theorem maximumAgeRecord_change {run : WorkflowRun} {dueAt : Nat} {next : CleanupRecord}
    {stored : Option CleanupRecord} (changes : maximumAgeRecord run dueAt stored = some next) :
    next.dueAt = dueAt ∧
      ((stored = none ∧ next.phase = .retained ∧ next.generation = 0 ∧ next.counts = (0, 0, 0)) ∨
      ∃ record, stored = some record ∧ next.generation = record.generation + 1 ∧ record.phase = .retained ∧
        next.phase = .retained ∧ next.dueAt < record.dueAt ∧ next.counts = record.counts) := by
  unfold maximumAgeRecord at changes
  split at changes
  · cases changes
    exact ⟨rfl, .inl ⟨rfl, rfl, rfl, rfl⟩⟩
  · rename_i record
    split at changes
    · rename_i sooner
      cases changes
      exact ⟨rfl, .inr ⟨record, rfl, rfl, sooner.1, sooner.1, sooner.2, rfl⟩⟩
    · cases changes

theorem expireCleanupNow_step (run : expireCleanupNow W now store = .ok after) :
    CellStep W runId now store .expireCleanupNow after := by
  unfold expireCleanupNow at run
  split at run
  · cases run
    exact .idle
  rename_i record stored
  split at run
  · cases run
    exact .idle
  rename_i unfinished
  obtain ⟨expired, expire, run⟩ := bind_ok.mp run
  cases run
  have written : expired = store.run.map (fun run => { run with expiredAt := some now }) ∧
      ∀ run, store.run = some run → W.workflowRunSchema { run with expiredAt := some now } = true := by
    unfold expireRun at expire
    split at expire
    · rename_i absent
      cases expire
      exact ⟨by rw [absent]; rfl, fun run current => by cases absent.symm.trans current⟩
    · rename_i run current
      obtain ⟨parsed, parse, expire⟩ := bind_ok.mp expire
      obtain ⟨valid, rfl⟩ := parseWith_ok.mp parse
      cases expire
      exact ⟨by rw [current]; rfl, fun other same => Option.some.inj (current.symm.trans same) ▸ valid⟩
  exact written.1 ▸ .due stored unfinished written.2

theorem rearmCleanup_step : CellStep W runId now store .rearmCleanup (rearmCleanup now store) := by
  obtain ⟨alarm, rearms⟩ : ∃ alarm, rearmCleanup now store = { store with alarm } := by
    unfold rearmCleanup
    repeat' split
    all_goals exact ⟨_, rfl⟩
  exact rearms ▸ .rearmed rearms

theorem sameCleanup_stored {expected : CleanupRecord} (same : sameCleanup store expected = true) :
    ∃ record, store.cleanup = some record ∧ record.phase = expected.phase ∧
      record.generation = expected.generation := by
  unfold sameCleanup at same
  cases stored : store.cleanup with
  | none => simp [stored] at same
  | some record =>
    simp only [stored, Option.any_some, decide_eq_true_eq] at same
    exact ⟨record, rfl, same⟩

theorem commitCleanupPage_step {expected : CleanupRecord} {page : CleanupPage} {alarm : Nat}
    {update : CleanupRecord → CleanupRecord} {keys : List StoreKey} (paged : page ≠ .payload)
    (phase : expected.phase = page.phase) (updates : ∀ record, update record = page.update record)
    (deletes : keys = page.keys) (started : page = .start → expected.dueAt ≤ now) :
    PageStep now expected page store (commitCleanupPage expected update alarm keys store) := by
  unfold commitCleanupPage
  split
  · rename_i same
    obtain ⟨record, stored, samePhase, sameGeneration⟩ := sameCleanup_stored same
    have commit : { store.deleteAll keys with
        cleanup := store.cleanup.map fun cleanup =>
          { update cleanup with generation := cleanup.generation + 1, attempts := 0, lastError := none }
        alarm := some alarm } = pageCommit page record alarm store := by
      simp only [pageCommit, stored, Option.map_some, updates, deletes]
    exact .committed paged phase stored samePhase sameGeneration commit started
  · rename_i other
    exact .stale ⟨store.alarm, rfl⟩ (.inr (.inr (by simpa using other)))

/-- A payload page deletes keys that it has listed, or leaves the tombstone alone. -/
theorem deletePayloadBatch_step : BatchStep now store (deletePayloadBatch now store) := by
  unfold deletePayloadBatch
  split
  · rename_i absent
    exact .idle rfl (by rw [absent]; rfl)
  rename_i record stored
  split
  · rename_i other
    exact .idle rfl (by simpa [stored] using other)
  rename_i payload
  have payload : record.phase = .payload := by simpa using payload
  simp only
  split
  · refine .batched stored payload ?_ (fun key member => ?_) rfl
    · exact (((store.keys_nodup.sublist (List.take_sublist _ _)).filter _).sublist (List.take_sublist _ _))
    · obtain ⟨listed, spared⟩ := List.mem_filter.mp (List.mem_of_mem_take member)
      exact ⟨spared, RunStore.mem_keys.mp (List.mem_of_mem_take listed)⟩
  · rename_i nothing
    have page : (store.keys.take (PAYLOAD_DELETE_BATCH + 3)).filter StoreKey.isPayload = [] := by
      simpa [StoreKey.isPayload, PAYLOAD_DELETE_BATCH] using nothing
    obtain ⟨cleanup, tombstone, alarm, bare⟩ := RunStore.bare_of_page page
    exact .finished stored payload rfl ⟨_, none, by rw [bare]; rfl⟩

/-- A page commits on the record that its pass has read, or not at all. -/
theorem executeCleanup_step {expected : CleanupRecord} {page : CleanupPage} :
    PageStep now expected page store (executeCleanup now expected page store) := by
  unfold executeCleanup
  split
  · rename_i retained
    split
    · exact .stale ⟨some expected.dueAt, rfl⟩ (.inr (.inl rfl))
    · rename_i due
      exact commitCleanupPage_step nofun retained (fun _ => rfl) rfl fun _ => Nat.le_of_not_lt due
  · rename_i index
    exact commitCleanupPage_step nofun index (fun _ => rfl) rfl nofun
  · rename_i streams
    exact commitCleanupPage_step nofun streams (fun _ => rfl) rfl nofun
  · rename_i queues
    exact commitCleanupPage_step nofun queues (fun _ => rfl) rfl nofun
  · rename_i payload
    exact .batch rfl payload deletePayloadBatch_step
  · rename_i page _ _ retained index streams queues payload
    refine .stale ⟨store.alarm, rfl⟩ (.inl fun phase => ?_)
    cases page with
    | start => exact retained phase rfl
    | index markers more => exact index markers more phase rfl
    | streams deleted done => exact streams deleted done phase rfl
    | queues ids more => exact queues ids more phase rfl
    | payload => exact payload phase rfl

theorem recordCleanupFailure_step {error : String} {expected : CleanupRecord} :
    CellStep W runId now store (.recordCleanupFailure error expected)
      (recordCleanupFailure now error expected store) := by
  unfold recordCleanupFailure
  split
  · exact .idle
  rename_i record stored
  split
  · exact .idle
  · rename_i current
    exact .failed stored fun finished => current (.inr finished)

theorem sameTerminalCleanup_isSome {expected : TerminalCleanupRecord}
    (same : sameTerminalCleanup store expected = true) : store.terminalCleanup.isSome := by
  unfold sameTerminalCleanup at same
  cases stored : store.terminalCleanup <;> simp_all

theorem hookKeys_derived {hooks : List Hook} {key : StoreKey} (member : key ∈ hooks.flatMap hookKeys) :
    key.isDerived = true := by
  obtain ⟨hook, -, inKeys⟩ := List.mem_flatMap.mp member
  simp only [hookKeys, List.mem_cons, List.not_mem_nil, or_false] at inKeys
  rcases inKeys with rfl | rfl <;> rfl

theorem markerKeys_derived {markers : List (String × String)} {key : StoreKey}
    (member : key ∈ markers.map StoreKey.hookMarker) : key.isDerived = true := by
  obtain ⟨marker, -, rfl⟩ := List.mem_map.mp member
  rfl

theorem waitKeys_derived {ids : List String} {key : StoreKey} (member : key ∈ ids.map StoreKey.wait) :
    key.isDerived = true := by
  obtain ⟨id, -, rfl⟩ := List.mem_map.mp member
  rfl

theorem smallKeys_derived {hooks : List Hook} {markers : List (String × String)} {ids : List String}
    {key : StoreKey} (member : key ∈ hooks.flatMap hookKeys ++ markers.map .hookMarker ++ ids.map .wait) :
    key.isDerived = true := by
  rcases List.mem_append.mp member with member | member
  · rcases List.mem_append.mp member with member | member
    · exact hookKeys_derived member
    · exact markerKeys_derived member
  · exact waitKeys_derived member

theorem commitTerminalPage_step {expected : TerminalCleanupRecord} {page : TerminalCleanupPage}
    {next : TerminalCleanupPhase} {keys : List StoreKey} (derived : ∀ key ∈ keys, key.isDerived = true) :
    CellStep W runId now store (.executeTerminalCleanup expected page)
      (commitTerminalPage now expected next keys store) := by
  unfold commitTerminalPage
  split
  · rename_i same
    exact .swept (sameTerminalCleanup_isSome same) derived
  · exact .idle

theorem executeTerminalCleanup_step {expected : TerminalCleanupRecord} {page : TerminalCleanupPage} :
    CellStep W runId now store (.executeTerminalCleanup expected page)
      (executeTerminalCleanup now expected page store) := by
  unfold executeTerminalCleanup
  split
  · unfold completeSmallTerminalCleanup
    split
    · exact .idle
    rename_i same
    split
    · exact .idle
    · exact .swept (sameTerminalCleanup_isSome (by simpa using same)) fun _ => smallKeys_derived
  · exact commitTerminalPage_step fun _ => hookKeys_derived
  · exact commitTerminalPage_step fun _ => markerKeys_derived
  · unfold deleteTerminalWaitPage
    simp only
    split
    · exact .idle
    rename_i same
    split
    · exact commitTerminalPage_step fun _ => waitKeys_derived
    · exact .swept (sameTerminalCleanup_isSome (by simpa using same)) fun _ => waitKeys_derived
  · exact .idle

theorem recordTerminalCleanupFailure_step {error : String} {expected : TerminalCleanupRecord} :
    CellStep W runId now store (.recordTerminalCleanupFailure error expected)
      (recordTerminalCleanupFailure now error expected store) := by
  unfold recordTerminalCleanupFailure
  split
  · exact .idle
  rename_i record held
  split
  · exact .idle
  · exact .terminalFailed held

end WorkflowRunDO

/-- A call that throws leaves the store as it was. -/
theorem CellStep.transaction {op : CellOp} {α : Type} {body : Except Thrown (α × RunStore)}
    (step : ∀ answer after, body = .ok (answer, after) → CellStep W runId now store op after) :
    CellStep W runId now store op (transaction store body) := by
  cases call : body with
  | error => exact .idle
  | ok answer => exact step answer.1 answer.2 call

/-- Every transaction of a run cell is one of these steps. -/
theorem CellOp.run_step (W : WorldContract) (runId : String) (now : Nat) (op : CellOp) (store : RunStore) :
    CellStep W runId now store op (op.run W runId now store) := by
  cases op with
  | applyEvent request => exact .transaction fun _ _ => .applied
  | forceDisposeHook hookId token claimedBy => exact .transaction fun _ _ => .disposed
  | resolveHookTokenClaim => exact WorkflowRunDO.resolveHookTokenClaim_step
  | resolveExpiredHookClaim => exact WorkflowRunDO.resolveExpiredHookClaim_step
  | resolveForcedHookClaim => exact WorkflowRunDO.resolveForcedHookClaim_step
  | scheduleCleanup => exact .transaction fun _ _ => WorkflowRunDO.scheduleCleanup_step
  | enforceRetention => exact .transaction fun _ _ => WorkflowRunDO.enforceRetention_step
  | expireCleanupNow =>
    refine .transaction fun _ after call => ?_
    cases expire : WorkflowRunDO.expireCleanupNow W now store with
    | error =>
      rw [expire] at call
      cases call
    | ok stored =>
      rw [expire] at call
      cases call
      exact WorkflowRunDO.expireCleanupNow_step expire
  | rearmCleanup => exact WorkflowRunDO.rearmCleanup_step
  | executeCleanup => exact .paged WorkflowRunDO.executeCleanup_step
  | recordCleanupFailure => exact WorkflowRunDO.recordCleanupFailure_step
  | executeTerminalCleanup => exact WorkflowRunDO.executeTerminalCleanup_step
  | recordTerminalCleanupFailure => exact WorkflowRunDO.recordTerminalCleanupFailure_step
  | queue op => exact .queued

end CelldWorld
