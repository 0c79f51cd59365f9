import CelldWorld.RunQueue
import CelldWorld.Spec.Answers

namespace CelldWorld

/-- What one alarm of the retention cleanup commits, after its calls to other cells. -/
inductive CleanupPage
  | start
  | index (markers : List (String × String)) (more : Bool)
  | streams (deleted : Nat) (done : Bool)
  | queues (page : List String) (more : Bool)
  | payload
  deriving DecidableEq, Repr

/-- What one alarm of the terminal cleanup commits, after its calls to other cells. -/
inductive TerminalCleanupPage
  | small (hooks : List Hook) (markers : List (String × String))
  | hooks (page : List Hook) (more : Bool)
  | markers (page : List (String × String)) (more : Bool)
  | waits
  deriving DecidableEq, Repr

/-- One transaction of a run cell. -/
inductive CellOp
  | applyEvent (request : ApplyEventRequest)
  | forceDisposeHook (hookId token : String) (claimedBy : HookTokenOwner)
  | resolveHookTokenClaim (hookId token claimId : String)
  | resolveExpiredHookClaim (hookId claimId : String) (token : Option String)
  | resolveForcedHookClaim (request : ForcedClaimRequest)
  | scheduleCleanup (request : ScheduleCleanupRequest)
  | enforceRetention (request : EnforceRetentionRequest)
  | expireCleanupNow
  | rearmCleanup
  | executeCleanup (expected : CleanupRecord) (page : CleanupPage)
  | recordCleanupFailure (error : String) (expected : CleanupRecord)
  | executeTerminalCleanup (expected : TerminalCleanupRecord) (page : TerminalCleanupPage)
  | recordTerminalCleanupFailure (error : String) (expected : TerminalCleanupRecord)
  | queue (op : QueueOp)

namespace WorkflowRunDO

/-- `executeCleanup`: the page of the phase that the alarm read. -/
def executeCleanup (now : Nat) (expected : CleanupRecord) (page : CleanupPage) (store : RunStore) :
    RunStore :=
  match expected.phase, page with
  | .retained, .start =>
    if now < expected.dueAt then { store with alarm := some expected.dueAt } else startCleanup now expected store
  | .index, .index markers more => deleteIndexPage now expected markers more store
  | .streams, .streams deleted done => deleteStreamPage now expected deleted done store
  | .queues, .queues page more => deleteQueuePage now expected page more store
  | .payload, .payload => deletePayloadBatch now store
  | _, _ => store

/-- `executeTerminalCleanup`: the page of the phase that the alarm read. -/
def executeTerminalCleanup (now : Nat) (expected : TerminalCleanupRecord) (page : TerminalCleanupPage)
    (store : RunStore) : RunStore :=
  match expected.phase, page with
  | .hooks, .small hooks markers =>
      (completeSmallTerminalCleanup now expected hooks markers store).getD store
  | .hooks, .hooks page more => deleteTerminalHookPage now expected page more store
  | .markers, .markers page more => deleteTerminalHookMarkerPage now expected page more store
  | .waits, .waits => deleteTerminalWaitPage now expected store
  | _, _ => store

end WorkflowRunDO

/-- The store of the cell named `runId` after one transaction at time `now`. -/
def CellOp.run (W : WorldContract) (runId : String) (now : Nat) (op : CellOp) (store : RunStore) :
    RunStore :=
  match op with
  | .applyEvent request => transaction store (WorkflowRunDO.applyEvent W runId now request store)
  | .forceDisposeHook hookId token claimedBy =>
      transaction store (WorkflowRunDO.forceDisposeHook W runId now hookId token claimedBy store)
  | .resolveHookTokenClaim hookId token claimId =>
      (WorkflowRunDO.resolveHookTokenClaim now hookId token claimId store).2
  | .resolveExpiredHookClaim hookId claimId token =>
      transaction store (WorkflowRunDO.resolveExpiredHookClaim now hookId claimId token store)
  | .resolveForcedHookClaim request =>
      transaction store (WorkflowRunDO.resolveForcedHookClaim now request store)
  | .scheduleCleanup request => transaction store (WorkflowRunDO.scheduleCleanup W now request store)
  | .enforceRetention request => transaction store (WorkflowRunDO.enforceRetention W now request store)
  | .expireCleanupNow =>
      transaction store ((WorkflowRunDO.expireCleanupNow W now store).map fun store => ((), store))
  | .rearmCleanup => WorkflowRunDO.rearmCleanup now store
  | .executeCleanup expected page => WorkflowRunDO.executeCleanup now expected page store
  | .recordCleanupFailure error expected => WorkflowRunDO.recordCleanupFailure now error expected store
  | .executeTerminalCleanup expected page =>
      WorkflowRunDO.executeTerminalCleanup now expected page store
  | .recordTerminalCleanupFailure error expected =>
      WorkflowRunDO.recordTerminalCleanupFailure now error expected store
  | .queue op => op.run now store

/-- A resilient `run_started`, which carries the input of its run. -/
def CellOp.resilientStart (runId deploymentId workflowName : String) (input : Value) : CellOp :=
  .applyEvent
    { runId
      data :=
        { specVersion := none
          data := .runStarted (some
            { deploymentId := some deploymentId
              workflowName := some workflowName
              input := some input
              executionContext := none
              attributes := none
              allowReservedAttributes := none
              encryptionPublicKey := none }) } }

/-- An event of the run "run", as `events.create` sends it. -/
def CellOp.event (data : CreateEvent) : CellOp :=
  .applyEvent { runId := "run", data := { specVersion := none, data } }

namespace RunStore

/-- Payload deletion has not begun. -/
def beforePayload (store : RunStore) : Bool :=
  store.tombstone.isNone && store.cleanup.all fun cleanup =>
    cleanup.phase ≠ .payload ∧ cleanup.phase ≠ .tombstoned

/-- No run of the cell is still active. -/
def Ended (store : RunStore) : Prop :=
  ∀ run, store.run = some run → isTerminalWorkflowRunStatus run.status = true

end RunStore

/-- A run without the expiry time that retention writes into it. -/
def WorkflowRun.unexpired (run : WorkflowRun) : WorkflowRun := { run with expiredAt := none }

/-- Two families of entities are the same, or entities of an ended run were deleted. -/
def Swept {κ ν : Type} {cmp : κ → κ → Ordering} (before after : Std.ExtTreeMap κ ν cmp)
    [Std.TransCmp cmp] (ended : Prop) : Prop :=
  ∀ key : κ, after[key]? = before[key]? ∨ (after[key]? = none ∧ ended)

/-- A change of the store that journals nothing: bookkeeping of the retention and
index protocols, and the sweeping of hooks and waits once the run has ended. -/
structure Quiet (before after : RunStore) : Prop where
  events : after.events = before.events
  eventSequence : after.eventSequence = before.eventSequence
  steps : after.steps = before.steps
  stepCreated : after.stepCreated = before.stepCreated
  hookEvent : after.hookEvent = before.hookEvent
  attrEvent : after.attrEvent = before.attrEvent
  hookResume : after.hookResume = before.hookResume
  run : after.run.map WorkflowRun.unexpired = before.run.map WorkflowRun.unexpired
  hooks : Swept before.hooks after.hooks before.Ended
  hookCreated : Swept before.hookCreated after.hookCreated before.Ended
  waits : Swept before.waits after.waits before.Ended
  fences : ∀ claimId, claimId ∈ before.hookClaimCancelled → claimId ∈ after.hookClaimCancelled
  hookForced : ∀ (id : String) claim, before.hookForced[id]? = some claim → after.hookForced[id]? = some claim
  terminalCleanup : after.terminalCleanup.isSome → before.terminalCleanup.isSome ∨ before.isTerminal

namespace Swept
variable {κ ν : Type} {cmp : κ → κ → Ordering} [Std.TransCmp cmp]
variable {first middle last : Std.ExtTreeMap κ ν cmp} {ended : Prop}

theorem refl : Swept first first ended :=
  fun _ => .inl rfl

theorem trans (head : Swept first middle ended) (tail : Swept middle last ended) :
    Swept first last ended := by
  intro key
  rcases tail key with same | swept
  · rw [same]
    exact head key
  · exact .inr swept

/-- Nothing is swept while the run is active. -/
theorem eq [Std.LawfulEqCmp cmp] (swept : Swept first last ended) (active : ¬ ended) : last = first :=
  Std.ExtTreeMap.ext_getElem? fun {key} => (swept key).resolve_right fun gone => active gone.2

theorem some (swept : Swept first last ended) {key : κ} {value : ν} (stored : last[key]? = some value) :
    first[key]? = some value := by
  rcases swept key with same | ⟨gone, -⟩
  · exact same ▸ stored
  · rw [gone] at stored
    cases stored

theorem erase [Std.LawfulEqCmp cmp] (key : κ) (holds : ended) : Swept first (first.erase key) ended := by
  intro other
  rw [Std.ExtTreeMap.getElem?_erase]
  split
  · exact .inr ⟨rfl, holds⟩
  · exact .inl rfl

end Swept

end CelldWorld
