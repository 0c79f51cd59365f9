import CelldWorld.Expiry

namespace CelldWorld

namespace WorkflowRunDO

/-- Every read of the cell: an expired run is answered with its tombstone. -/
def read {α : Type} (now : Nat) (reader : RunStore → α) (store : RunStore) : Except RunTombstone α :=
  match store.tombstoneFrom now with
  | some tombstone => .error tombstone
  | none => .ok (reader store)

def getCleanupStatus (store : RunStore) : Option CleanupRecord :=
  store.cleanup.or (store.tombstone.map RunTombstone.cleanup)

end WorkflowRunDO

/-- The calls that may find their run expired: event applications, reads, admissions of
queue messages and lifecycle calls. -/
inductive CellCall
  | applyEvent (request : ApplyEventRequest)
  | read (reader : RunStore → Value)
  | getLifecycleStatus
  | describeForceClaimVictim
  | getQueueAdmission
  | reserveRunQueueMessage (request : ReserveRunQueueRequest)
  | claimRunQueueMessage (claimName messageId : String) (staleMs : Nat)
  | registerQueuePayload (registration : QueuePayloadRegistration)
  | finalizeQueuePayload (messageId : String)

namespace CellCall
variable (W : WorldContract) (runId : String) (now : Nat) (store : RunStore)

/-- The call is answered from the tombstone of its run. -/
def ReportsExpiry (call : CellCall) : Prop :=
  ∃ tombstone, store.tombstoneFrom now = some tombstone ∧
    match call with
    | .applyEvent request =>
        WorkflowRunDO.applyEvent W runId now request store =
          .ok (WorkflowRunDO.runExpired request.runId tombstone, store)
    | .read reader => WorkflowRunDO.read now reader store = .error tombstone
    | .getLifecycleStatus => WorkflowRunDO.getLifecycleStatus now store = .expired
    | .describeForceClaimVictim =>
        WorkflowRunDO.describeForceClaimVictim now store = ⟨.expired, none, none, none⟩
    | .getQueueAdmission =>
        WorkflowRunDO.getQueueAdmission now store = .refused (WorkflowRunDO.queueRefusal tombstone)
    | .reserveRunQueueMessage request =>
        WorkflowRunDO.reserveRunQueueMessage now request store =
          .ok (.refused (WorkflowRunDO.queueRefusal tombstone), store)
    | .claimRunQueueMessage claimName messageId staleMs =>
        WorkflowRunDO.claimRunQueueMessage now claimName messageId staleMs store = .ok (.expired, store)
    | .registerQueuePayload registration =>
        WorkflowRunDO.registerQueuePayload now registration store =
          .ok (.refused (WorkflowRunDO.queueRefusal tombstone), store)
    | .finalizeQueuePayload messageId =>
        WorkflowRunDO.finalizeQueuePayload now messageId store =
          .ok (.refused (WorkflowRunDO.queueRefusal tombstone))

def Throws (error : Thrown) (call : CellCall) : Prop :=
  match call with
  | .applyEvent request => WorkflowRunDO.applyEvent W runId now request store = .error error
  | .reserveRunQueueMessage request => WorkflowRunDO.reserveRunQueueMessage now request store = .error error
  | .claimRunQueueMessage claimName messageId staleMs =>
      WorkflowRunDO.claimRunQueueMessage now claimName messageId staleMs store = .error error
  | .registerQueuePayload registration => WorkflowRunDO.registerQueuePayload now registration store = .error error
  | .finalizeQueuePayload messageId => WorkflowRunDO.finalizeQueuePayload now messageId store = .error error
  | .read _ | .getLifecycleStatus | .describeForceClaimVictim | .getQueueAdmission => False

/-- The arguments of the call are refused, whatever the cell stores. -/
def Malformed (call : CellCall) : Prop :=
  ∃ error, ∀ now store, call.Throws W runId now store error

variable {W runId now store}

/-- Only an expired run is reported expired. -/
theorem ReportsExpiry.expired {call : CellCall} (reports : call.ReportsExpiry W runId now store) :
    (store.tombstoneFrom now).isSome := by
  obtain ⟨tombstone, expired, -⟩ := reports
  rw [expired]
  rfl

/-- Every well-formed call on an expired run reports it expired. -/
theorem reportsExpiry_of_expired (call : CellCall) (expired : (store.tombstoneFrom now).isSome) :
    call.ReportsExpiry W runId now store ∨ call.Malformed W runId := by
  obtain ⟨tombstone, expired⟩ := Option.isSome_iff_exists.mp expired
  have lifecycle : WorkflowRunDO.getLifecycleStatus now store = .expired := by
    simp [WorkflowRunDO.getLifecycleStatus, expired]
  cases call with
  | applyEvent request =>
    have thrown (error : Thrown)
        (throws : ∀ now store, WorkflowRunDO.applyEvent W runId now request store = .error error) :
        (CellCall.applyEvent request).Malformed W runId :=
      ⟨error, throws⟩
    unfold WorkflowRunDO.applyEvent at thrown
    cases parse : parseApplyEventRequest W request with
    | error error => exact .inr (thrown error fun _ _ => by rw [parse]; rfl)
    | ok parsed =>
      obtain rfl := parseApplyEventRequest_ok parse
      simp only [parse, bind, Except.bind] at thrown
      by_cases ofRun : parsed.runId = runId
      · cases check : checkCleanup parsed.cleanup with
        | error error =>
          exact .inr (thrown error fun _ _ => by simp only [ofRun, check, ne_eq, not_true_eq_false, if_false])
        | ok =>
          refine .inl ⟨tombstone, expired, ?_⟩
          simp only [WorkflowRunDO.applyEvent, parse, ofRun, check, expired, bind, Except.bind, ne_eq,
            not_true_eq_false, if_false]
      · exact .inr (thrown _ fun _ _ => if_pos ofRun)
  | read reader => exact .inl ⟨tombstone, expired, by simp only [WorkflowRunDO.read, expired]⟩
  | getLifecycleStatus => exact .inl ⟨tombstone, expired, lifecycle⟩
  | describeForceClaimVictim =>
    exact .inl ⟨tombstone, expired, by simp only [WorkflowRunDO.describeForceClaimVictim, lifecycle]⟩
  | getQueueAdmission =>
    exact .inl ⟨tombstone, expired, by simp only [WorkflowRunDO.getQueueAdmission, expired]⟩
  | reserveRunQueueMessage request =>
    by_cases invalid : validRunQueueClaimName request.claimName = false ∨ request.messageId = "" ∨
        MAX_SAFE_INTEGER < request.expiresAt
    · exact .inr ⟨_, fun _ _ => if_pos invalid⟩
    · refine .inl ⟨tombstone, expired, (if_neg invalid).trans ?_⟩
      simp only [expired]
  | claimRunQueueMessage claimName messageId staleMs =>
    by_cases invalid : validRunQueueClaimName claimName = false ∨ messageId = "" ∨ staleMs = 0 ∨
        MAX_SAFE_INTEGER < staleMs
    · exact .inr ⟨_, fun _ _ => if_pos invalid⟩
    · refine .inl ⟨tombstone, expired, (if_neg invalid).trans (if_pos ?_)⟩
      rw [expired]
      rfl
  | registerQueuePayload registration =>
    by_cases invalid : registration.messageId = "" ∨ registration.key = "" ∨
        MAX_SAFE_INTEGER < registration.orphanExpiresAt
    · exact .inr ⟨_, fun _ _ => if_pos invalid⟩
    · refine .inl ⟨tombstone, expired, (if_neg invalid).trans ?_⟩
      simp only [expired]
  | finalizeQueuePayload messageId =>
    by_cases invalid : messageId = ""
    · exact .inr ⟨_, fun _ _ => if_pos invalid⟩
    · refine .inl ⟨tombstone, expired, (if_neg invalid).trans ?_⟩
      simp only [expired]

end CellCall

/-- The phase of the cleanup that `getCleanupStatus` shows. -/
def RunStore.cleanupPhase (store : RunStore) : Option CleanupPhase :=
  (WorkflowRunDO.getCleanupStatus store).map CleanupRecord.phase

/-- One move of the cleanup phase: none, the start of retention, or on to the next phase. -/
def CleanupPhase.Moves (before after : Option CleanupPhase) : Prop :=
  after = before ∨ before = none ∧ after = some .retained ∨
    ∃ phase, before = some phase ∧ after = some phase.next

variable {W : WorldContract} {runId : String}

/-- A transaction moves the phase by one step at most. -/
theorem RecordStep.moves {now : Nat} {op : CellOp} {before after : RunStore}
    (step : RecordStep now op before after) :
    CleanupPhase.Moves before.cleanupPhase after.cleanupPhase := by
  unfold RunStore.cleanupPhase WorkflowRunDO.getCleanupStatus
  cases step with
  | kept cleanup tombstone =>
    rw [cleanup, tombstone]
    exact .inl rfl
  | scheduled absent alive cleanup tombstone retained first =>
    rw [absent, alive, cleanup]
    exact .inr (.inl ⟨rfl, congrArg some retained⟩)
  | @changed record next stored cleanup tombstone generation change =>
    rw [stored, cleanup]
    have one : next.phase = record.phase ∨ next.phase = record.phase.next := by
      cases change with
      | aged before phase sooner => exact .inl (phase.trans before.symm)
      | due phase dueAt => exact .inl phase
      | failed phase dueAt => exact .inl phase
      | paged page samePhase sameGeneration phase before started dueAt => exact phase
    rcases one with same | moved
    · exact .inl (congrArg some same)
    · exact .inr (.inr ⟨_, rfl, congrArg some moved⟩)
  | batched stored payload cleanup tombstone generation phase dueAt =>
    rw [stored, cleanup]
    exact .inl (congrArg some (phase.trans payload.symm))
  | finished stored payload cleanup tombstone generation phase dueAt bare =>
    rw [stored, cleanup, tombstone]
    exact .inr (.inr ⟨_, rfl, congrArg (fun phase => some (CleanupPhase.next phase)) payload.symm⟩)

namespace ExpiringCell.Recorded
variable {cell : ExpiringCell}

/-- Every deadline on record of an expired run has passed. -/
theorem deadline {record : CleanupRecord} (recorded : cell.Recorded)
    (expired : (cell.store.tombstoneFrom cell.now).isSome)
    (status : WorkflowRunDO.getCleanupStatus cell.store = some record) : record.dueAt ≤ cell.now := by
  unfold WorkflowRunDO.getCleanupStatus at status
  cases stored : cell.store.cleanup with
  | some other =>
    rw [stored] at status
    obtain rfl := Option.some.inj status
    by_cases left : other.phase = .retained
    · rcases RunStore.tombstoneFrom_isSome_iff.mp expired with gone | ⟨same, held, due⟩
      · obtain ⟨tombstone, gone⟩ := Option.isSome_iff_exists.mp gone
        cases left.symm.trans ((recorded.expired tombstone gone).2 other stored)
      · obtain rfl := Option.some.inj (stored.symm.trans held)
        exact due left
    · exact recorded.due other stored left
  | none =>
    rw [stored, Option.none_or] at status
    obtain ⟨tombstone, gone, rfl⟩ := Option.map_eq_some_iff.mp status
    rw [(recorded.stamped tombstone gone).1]
    exact (recorded.expired tombstone gone).1

theorem tombstoned (recorded : cell.Recorded) (phase : cell.store.cleanupPhase = some .tombstoned) :
    ∃ tombstone alarm, cell.store = RunTombstone.store tombstone alarm := by
  obtain ⟨record, status, phase⟩ := Option.map_eq_some_iff.mp phase
  unfold WorkflowRunDO.getCleanupStatus at status
  cases stored : cell.store.cleanup with
  | some other =>
    rw [stored] at status
    obtain rfl := Option.some.inj status
    exact absurd phase (recorded.unfinished other stored)
  | none =>
    rw [stored, Option.none_or] at status
    obtain ⟨tombstone, gone, -⟩ := Option.map_eq_some_iff.mp status
    exact ⟨tombstone, recorded.bare tombstone gone stored⟩

end ExpiringCell.Recorded

theorem CellPasses.trans {first middle last : ExpiringCell} (head : CellPasses W runId first middle)
    (tail : CellPasses W runId middle last) : CellPasses W runId first last := by
  induction tail with
  | start => exact head
  | read _ stored ih => exact .read ih stored
  | next op _ tick follows ih => exact .next op ih tick follows

theorem CellPasses.bare {cell later : ExpiringCell} (reach : CellPasses W runId cell later)
    (bare : ∃ tombstone alarm, cell.store = RunTombstone.store tombstone alarm) :
    ∃ tombstone alarm, later.store = RunTombstone.store tombstone alarm := by
  induction reach with
  | start => exact bare
  | read _ _ ih => exact ih
  | @next cell now op _ _ _ ih =>
    obtain ⟨tombstone, alarm, same⟩ := ih
    obtain ⟨alarm', after⟩ := op.run_tombstone W runId now tombstone alarm
    exact ⟨tombstone, alarm', by simp only [same, after]⟩

/-- Expiry is permanent, its phases only move forward, its deadline stays in the past,
and nothing but the tombstone is stored in the end. -/
theorem expiry_permanent {W : WorldContract} {runId : String} {start : Nat} {cell : ExpiringCell}
    (reach : CellPasses W runId ⟨start, {}, []⟩ cell) :
    (∀ call : CellCall, call.ReportsExpiry W runId cell.now cell.store → ∀ later, CellPasses W runId cell later →
      (∀ other : CellCall, other.ReportsExpiry W runId later.now later.store ∨ other.Malformed W runId) ∧
        ∀ record, WorkflowRunDO.getCleanupStatus later.store = some record → record.dueAt ≤ later.now) ∧
    (∀ now (op : CellOp), cell.now ≤ now → (∀ expected, op.pageRecord = some expected → expected ∈ cell.passes) →
      CleanupPhase.Moves cell.store.cleanupPhase (op.run W runId now cell.store).cleanupPhase) ∧
    (cell.store.cleanupPhase = some .tombstoned → ∀ later, CellPasses W runId cell later →
      later.store.keys = [.tombstone]) := by
  have recorded := reach.recorded .start
  refine ⟨fun call reports later continues => ?_, fun now op _ _ => ?_, fun phase later continues => ?_⟩
  · have expired := continues.expired reports.expired
    exact ⟨fun other => CellCall.reportsExpiry_of_expired other expired,
      fun record status => (continues.recorded recorded).deadline expired status⟩
  · exact (op.recordStep W runId now cell.store).moves
  · exact RunStore.Bare.keys (continues.bare (recorded.tombstoned phase))

/-- Transactions other than cleanup pages, in the given order. -/
theorem CellPasses.next_other {first cell : ExpiringCell} {now : Nat} {op : CellOp}
    (reach : CellPasses W runId first cell) (tick : cell.now ≤ now) (other : op.pageRecord = none) :
    CellPasses W runId first ⟨now, op.run W runId now cell.store, cell.passes⟩ :=
  .next op reach tick fun _ page => by cases other.symm.trans page

/-- The completion of a run with a retention of five milliseconds. -/
def CellOp.completeRetained (runId : String) : CellOp :=
  .applyEvent { runId, data := { specVersion := none, data := .runCompleted none }, cleanup := some ⟨5⟩ }

def ExpiringCell.retained : ExpiringCell :=
  ⟨2, CellOp.run .unary "run" 2 (.completeRetained "run")
    (CellOp.run .unary "run" 1 (.resilientStart "run" "deployment" "workflow" (.string "input")) {}), []⟩

theorem ExpiringCell.retained_reach : CellPasses .unary "run" ⟨1, {}, []⟩ ExpiringCell.retained := by
  have started := (@CellPasses.start .unary "run" ⟨1, {}, []⟩).next_other (Nat.le_refl 1)
    (show (CellOp.resilientStart "run" "deployment" "workflow" (.string "input")).pageRecord = none from rfl)
  exact started.next_other (Nat.le_succ 1) (show (CellOp.completeRetained "run").pageRecord = none from rfl)

theorem expiry_permanent_retained :
    (CellCall.getQueueAdmission).ReportsExpiry .unary "run" 9
        (CellOp.run .unary "run" 9 .rearmCleanup ExpiringCell.retained.store) ∨
      (CellCall.getQueueAdmission).Malformed .unary "run" := by
  have expired := ExpiringCell.retained_reach.next_other (show 2 ≤ 9 by decide)
    (show CellOp.rearmCleanup.pageRecord = none from rfl)
  have reports : CellCall.getLifecycleStatus.ReportsExpiry .unary "run" 9
      (CellOp.run .unary "run" 9 .rearmCleanup ExpiringCell.retained.store) :=
    (CellCall.reportsExpiry_of_expired _ (by decide)).resolve_right fun ⟨_, throws⟩ => throws 0 {}
  exact ((expiry_permanent expired).1 .getLifecycleStatus reports _ .start).1 .getQueueAdmission

/-- The code of the refusal alone says less: `run_started` on a run that has ended but is
retained gets it as well. -/
theorem runExpired_not_permanent :
    ¬ ∀ W runId start cell, CellPasses W runId ⟨start, {}, []⟩ cell →
      ∀ request refusal after, WorkflowRunDO.applyEvent W runId cell.now request cell.store =
        .ok (.fail refusal, after) → refusal.code = .runExpired →
      WorkflowRunDO.getLifecycleStatus cell.now after = .expired := by
  intro claim
  have reported := claim .unary "run" 1 _ ExpiringCell.retained_reach
    { runId := "run", data := { specVersion := none, data := .runStarted none } } _ _ rfl rfl
  exact absurd reported (by decide)

end CelldWorld
