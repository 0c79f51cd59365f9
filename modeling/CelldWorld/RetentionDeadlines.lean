import CelldWorld.DeadlineSteps
import CelldWorld.TerminalCleanup
import CelldWorld.RunsList

namespace CelldWorld

/-- The check that `boundedIntegerOption` and `strictIntegerSetting` share. -/
def boundedInteger (name : String) (value : JsNumber) (minimum maximum : Nat) : Except Thrown Nat :=
  match value.safeInteger with
  | some integer =>
    if integer < minimum ∨ maximum < integer then
      .error (.error s!"{name} must be an integer between {minimum} and {maximum}")
    else .ok integer.toNat
  | none => .error (.error s!"{name} must be an integer between {minimum} and {maximum}")

def boundedIntegerOption (name : String) (value : Option JsNumber) (fallback minimum maximum : Nat) :
    Except Thrown Nat :=
  match value with
  | none => .ok fallback
  | some value => boundedInteger name value minimum maximum

/-- `Number(raw)` of decimal digits; the doubles that unsafe integers round to are unsafe too. -/
def decimalNumber (digits : String) : JsNumber :=
  .finite (digits.toList.foldl (fun value digit => 10 * value + (digit.toNat - '0'.toNat)) 0 : Nat)

def strictIntegerSetting (name : String) (raw : Option (String ⊕ JsNumber)) (fallback minimum maximum : Nat) :
    Except Thrown Nat :=
  match raw with
  | none => .ok fallback
  | some (.inr number) => boundedInteger name number minimum maximum
  | some (.inl text) =>
    boundedInteger name (if text ≠ "" ∧ text.toList.all Char.isDigit then decimalNumber text
      else .nan) minimum maximum

/-- The `runRetentionMs` of `resolveConfig`: the option, or else `CELLD_RUN_RETENTION_MS`. -/
def resolveRunRetentionMs (option : Option JsNumber) (environment : Option String) : Except Thrown Nat :=
  match option with
  | some value => boundedIntegerOption "world-celld: runRetentionMs" (some value) 0 0 MAX_SAFE_INTEGER
  | none => strictIntegerSetting "world-celld: runRetentionMs" (environment.map .inl) 0 0 MAX_SAFE_INTEGER

theorem boundedInteger_le {name : String} {value : JsNumber} {minimum maximum integer : Nat}
    (accepted : boundedInteger name value minimum maximum = .ok integer) : integer ≤ maximum := by
  unfold boundedInteger at accepted
  split at accepted
  · split at accepted
    · cases accepted
    · cases accepted
      omega
  · cases accepted

/-- The configuration accepts safe integers only. -/
theorem resolveRunRetentionMs_le {option : Option JsNumber} {environment : Option String} {retentionMs : Nat}
    (accepted : resolveRunRetentionMs option environment = .ok retentionMs) : retentionMs ≤ MAX_SAFE_INTEGER := by
  unfold resolveRunRetentionMs boundedIntegerOption strictIntegerSetting at accepted
  split at accepted
  · exact boundedInteger_le accepted
  split at accepted
  · cases accepted
    exact Nat.zero_le _
  · exact boundedInteger_le accepted
  · exact boundedInteger_le accepted

/-- The stores of a run cell after transactions that keep its retention, at any times. Among
them are the cleanup pages that `enforceRetention` runs itself. -/
inductive RetentionWrites (W : WorldContract) (runId : String) (first : RunStore) : RunStore → Prop
  | start : RetentionWrites W runId first first
  | next {now : Nat} {op : CellOp} {before : RunStore} (reach : RetentionWrites W runId first before)
      (retains : op.retains = true) : RetentionWrites W runId first (op.run W runId now before)

/-- A recorded deadline stays, or the maximum age of the run replaces it by an earlier one. -/
def KeepsDeadline (op : CellOp) (before after : RunStore) : Prop :=
  ∀ record, before.cleanup = some record → ∃ next, after.cleanup = some next ∧
    (next.dueAt = record.dueAt ∨ ∃ request run, op = .enforceRetention request ∧ before.run = some run ∧
      next.dueAt = run.createdAt + request.retentionMs ∧ next.dueAt < record.dueAt)

theorem DeadlineStep.keepsDeadline {W : WorldContract} {op : CellOp} {before after : RunStore}
    (step : DeadlineStep W op before after) (retains : op.retains = true) : KeepsDeadline op before after := by
  intro record held
  cases step with
  | kept dueAt =>
    rw [held, Option.map_some] at dueAt
    obtain ⟨next, stored, same⟩ := Option.map_eq_some_iff.mp dueAt
    exact ⟨next, stored, .inl same⟩
  | recorded absent => cases absent.symm.trans held
  | aged enforces stored cleanup current dueAt sooner =>
    obtain rfl := Option.some.inj (stored.symm.trans held)
    exact ⟨_, cleanup, .inr ⟨_, _, enforces, current, dueAt, sooner⟩⟩
  | forced forces => cases forces ▸ retains

theorem RetentionWrites.mirrored {W : WorldContract} {runId : String} {first last : RunStore}
    (reach : RetentionWrites W runId first last) (mirrored : first.Mirrored) : last.Mirrored := by
  induction reach with
  | start => exact mirrored
  | next _ retains ih => exact (CellOp.deadlineStep W runId _ _ (.inl retains)).mirrored ih

/-- The request was checked, the run is not expired, and the event was accepted. -/
structure PassesGuards (W : WorldContract) (runId : String) (now : Nat) (request : ApplyEventRequest)
    (store : RunStore) (success : ApplyEventSuccess) (txn : EventTxn) : Prop where
  parsed : parseApplyEventRequest W request = .ok request
  addressed : request.runId = runId
  unexpired : store.tombstoneFrom now = none
  applied : applyEvent W true { request with now } ⟨store, store.eventSequence⟩ = .ok (.ok success, txn)

/-- The call commits and leaves a deadline that is due `retentionMs` after the end of the run, if
it was to record one. As long as nothing ends the retention the deadline stays, but for an
earlier maximum age, and the run expires at the deadline. -/
def CommitsDeadline (W : WorldContract) (runId : String) (now : Nat) (request : ApplyEventRequest)
    (store : RunStore) (retentionMs : Nat) : Prop :=
  ∃ answer after, WorkflowRunDO.applyEvent W runId now request store = .ok (.ok answer, after) ∧
    (0 < retentionMs → store.cleanup = none → ∃ record run completedAt, after.cleanup = some record ∧
      after.run = some run ∧ isTerminalWorkflowRunStatus run.status = true ∧
      run.completedAt = some completedAt ∧ record.dueAt = completedAt + retentionMs) ∧
    ∀ last, RetentionWrites W runId after last → last.Mirrored ∧
      ∀ later op, op.retains = true → KeepsDeadline op last (op.run W runId later last)

section Commits
variable {W : WorldContract} {runId : String} {clock : Nat → Nat → Prop} {earlier now retentionMs : Nat}
variable {store : RunStore} {history : List Event} {request : ApplyEventRequest} {success : ApplyEventSuccess}
variable {txn : EventTxn}

theorem PassesGuards.call (guards : PassesGuards W runId now request store success txn)
    (checked : checkCleanup request.cleanup = .ok ()) :
    WorkflowRunDO.applyEvent W runId now request store =
      WorkflowRunDO.commitOutcome W request now store.eventSequence success txn := by
  unfold WorkflowRunDO.applyEvent
  rw [guards.parsed]
  change (if request.runId ≠ runId then _ else _) = _
  rw [if_neg (not_not_intro guards.addressed), checked, guards.unexpired, guards.applied]
  rfl

/-- The deadline can be recorded if there is none to record or it is a valid date. -/
theorem WorkflowRunDO.scheduleTerminalRetention_returns {run : WorkflowRun} (carried : success.run = some run)
    (due : retentionMs = 0 ∨ store.cleanup.isSome ∨ run.completedAt.getD 0 + retentionMs ≤ MAX_DATE_MS ∧
      W.workflowRunSchema { run with expiredAt := some (run.completedAt.getD 0 + retentionMs) } = true) :
    ∃ result, scheduleTerminalRetention W retentionMs success store = .ok result := by
  unfold scheduleTerminalRetention
  rw [carried]
  simp only
  split
  · rename_i unrecorded
    have fits : run.completedAt.getD 0 + retentionMs ≤ MAX_DATE_MS ∧
        W.workflowRunSchema { run with expiredAt := some (run.completedAt.getD 0 + retentionMs) } = true := by
      rcases due with off | held | fits
      · omega
      · simp [unrecorded.2.2] at held
      · exact fits
    rw [retentionDeadline_ok.mpr ⟨fits.1, rfl⟩]
    exact ⟨_, bind_ok.mpr ⟨_, rfl, bind_ok.mpr ⟨_, parseWith_ok.mpr ⟨fits.2, rfl⟩, rfl⟩⟩⟩
  · exact ⟨_, rfl⟩

/-- What the core answers to a terminal event: the run, ended at the time that the store tells. -/
theorem PassesGuards.ended (guards : PassesGuards W runId now request store success txn)
    (ends : request.data.data.finishes = true) (completed : store.Completed) (parsed : store.Parsed W) :
    ∃ run, success.run = some run ∧ isTerminalWorkflowRunStatus run.status = true ∧
      run.completedAt = some (store.endsAt now) ∧ W.workflowRunSchema run = true := by
  obtain ⟨run, carried, stored, terminal⟩ := applyEvent_finishes ends guards.applied
  obtain ⟨-, -, events, journals⟩ := applyEvent_journals guards.applied
  exact ⟨run, carried, terminal, journals.endsAt completed stored terminal,
    (applyEvent_rewrites guards.applied).parsed parsed run stored⟩

/-- The store in which the deadline of a successful application is recorded. -/
def markedStore (success : ApplyEventSuccess) (txn : EventTxn) : RunStore :=
  WorkflowRunDO.putHookReferences success (WorkflowRunDO.recordClaimScope success txn.commit)

/-- The call commits exactly if its deadline can be recorded, after which it starts the terminal cleanup. -/
theorem PassesGuards.commit_iff (guards : PassesGuards W runId now request store success txn)
    (checked : checkCleanup request.cleanup = .ok ()) {after : RunStore} :
    (∃ answer, WorkflowRunDO.applyEvent W runId now request store = .ok (.ok answer, after)) ↔
      ∃ scheduled stored, WorkflowRunDO.scheduleTerminalRetention W ((request.cleanup.map (·.retentionMs)).getD 0)
        success (markedStore success txn) = .ok (scheduled, stored) ∧
        after = WorkflowRunDO.startTerminalCleanup now scheduled stored := by
  have sequence : txn.store.eventSequence = store.eventSequence := (applyEvent_journals guards.applied).1
  rw [guards.call checked]
  constructor
  · rintro ⟨answer, commit⟩
    unfold WorkflowRunDO.commitOutcome at commit
    rw [← sequence, EventTxn.persist_eq] at commit
    obtain ⟨⟨scheduled, stored⟩, schedule, commit⟩ := bind_ok.mp commit
    exact ⟨scheduled, stored, schedule, (congrArg Prod.snd (Except.ok.inj commit)).symm⟩
  · rintro ⟨scheduled, stored, schedule, rfl⟩
    have commit : WorkflowRunDO.commitOutcome W request now store.eventSequence success txn =
        .ok (finalizeEventPage W (WorkflowRunDO.startTerminalCleanup now scheduled stored)
          (.ok (WorkflowRunDO.setPublicationDeadline now scheduled)) request.params,
          WorkflowRunDO.startTerminalCleanup now scheduled stored) := by
      unfold WorkflowRunDO.commitOutcome
      rw [← sequence, EventTxn.persist_eq]
      exact bind_ok.mpr ⟨_, schedule, rfl⟩
    cases answer : finalizeEventPage W (WorkflowRunDO.startTerminalCleanup now scheduled stored)
        (.ok (WorkflowRunDO.setPublicationDeadline now scheduled)) request.params with
    | fail refusal => exact absurd (answer ▸ commit) WorkflowRunDO.commitOutcome_succeeds
    | ok success => exact ⟨success, answer ▸ commit⟩

/-- Retention deadlines: a terminal event that passed the guards commits with its deadline, which
only an earlier maximum age replaces, exactly if there is nothing to record or the deadline
is a date. A schema that takes a run takes it with an expiry date as well. -/
theorem terminalEvent_commitsDeadline {option : Option JsNumber} {environment : Option String}
    (expiring : ∀ run dueAt, W.workflowRunSchema run = true → dueAt ≤ MAX_DATE_MS →
      W.workflowRunSchema { run with expiredAt := some dueAt } = true)
    (reach : CellReach W runId clock earlier store history)
    (configured : resolveRunRetentionMs option environment = .ok retentionMs)
    (carries : request.cleanup = some ⟨retentionMs⟩) (ends : request.data.data.finishes = true)
    (guards : PassesGuards W runId now request store success txn) :
    CommitsDeadline W runId now request store retentionMs ↔
      retentionMs = 0 ∨ store.cleanup.isSome ∨ store.endsAt now + retentionMs ≤ MAX_DATE_MS := by
  have unpaid := RunStore.beforePayload_of_unexpired guards.unexpired
  obtain ⟨mirrored, parsed⟩ := reach.deadlines unpaid
  obtain ⟨run, carried, terminal, endsAt, valid⟩ :=
    guards.ended ends ((completed_invariant.reach reach).1 unpaid).2 parsed
  have completedAt : run.completedAt.getD 0 = store.endsAt now := by rw [endsAt, Option.getD_some]
  have checked : checkCleanup request.cleanup = .ok () := by
    have safe := resolveRunRetentionMs_le configured
    simp [carries, checkCleanup, validateCleanupRequest, safe]
  have held : (markedStore success txn).cleanup = store.cleanup := by
    obtain ⟨-, -, events, journals⟩ := applyEvent_journals guards.applied
    obtain ⟨hookMarkers, marked⟩ :=
      @WorkflowRunDO.putHookReferences_markers success (WorkflowRunDO.recordClaimScope success txn.commit)
    rw [markedStore, marked, WorkflowRunDO.recordClaimScope_eq]
    exact journals.retention.1
  have commits {after : RunStore} :=
    @PassesGuards.commit_iff W runId now store request success txn guards checked after
  rw [carries, Option.map_some, Option.getD_some] at commits
  constructor
  · rintro ⟨answer, after, committed, -⟩
    obtain ⟨scheduled, stored, schedule, -⟩ := commits.mp ⟨answer, committed⟩
    rcases WorkflowRunDO.scheduleTerminalRetention_ok schedule with ⟨-, -, nothing⟩ |
      ⟨other, dueAt, same, -, -, rfl, fits, -⟩
    · exact (nothing run carried terminal).imp_right fun recorded => .inl (held ▸ recorded)
    · obtain rfl := Option.some.inj (carried.symm.trans same)
      exact .inr (.inr (completedAt ▸ fits))
  · intro due
    have returns : ∃ result, WorkflowRunDO.scheduleTerminalRetention W retentionMs success
        (markedStore success txn) = .ok result := by
      refine WorkflowRunDO.scheduleTerminalRetention_returns carried ?_
      rw [held, completedAt]
      exact due.imp_right (Or.imp_right fun fits => ⟨fits, expiring run _ valid fits⟩)
    obtain ⟨⟨scheduled, stored⟩, schedule⟩ := returns
    obtain ⟨answer, committed⟩ := commits.mpr ⟨scheduled, stored, schedule, rfl⟩
    refine ⟨answer, _, committed, fun on unrecorded => ?_, fun last reach => ⟨?_, fun later op retains =>
      (op.deadlineStep W runId later (.inl retains)).keepsDeadline retains⟩⟩
    · rcases WorkflowRunDO.scheduleTerminalRetention_ok schedule with ⟨-, -, nothing⟩ |
        ⟨other, dueAt, same, -, -, rfl, -, -, rfl, rfl⟩
      · rcases nothing run carried terminal with off | recorded
        · omega
        · rw [held, unrecorded] at recorded
          cases recorded
      · obtain rfl := Option.some.inj (carried.symm.trans same)
        obtain ⟨terminalCleanup, alarm, cleaned⟩ := @WorkflowRunDO.startTerminalCleanup_ok now
          (WorkflowRunDO.retained run (run.completedAt.getD 0 + retentionMs) (markedStore success txn))
          { success with run := some { run with expiredAt := some (run.completedAt.getD 0 + retentionMs) } }
        rw [cleaned]
        exact ⟨_, _, _, rfl, rfl, terminal, endsAt, congrArg (· + retentionMs) completedAt⟩
    · have step : DeadlineStep W (.applyEvent request) store _ := WorkflowRunDO.applyEvent_deadline committed
      exact reach.mirrored (step.mirrored mirrored)

end Commits

/-- A run that was started at time 0. -/
def retainedStart : RunStore :=
  (CellOp.runAll .unary "run" 0 [.resilientStart "run" "deployment" "workflow" (.other 0)] ({}, [])).1

/-- Its completion, as `events.create` sends it from a world with this retention. -/
def completion (retentionMs : Nat) : ApplyEventRequest :=
  { runId := "run", data := { specVersion := none, data := .runCompleted none }, cleanup := some ⟨retentionMs⟩ }

theorem retainedStart_reach : CellReach .unary "run" (· ≤ ·) 0 retainedStart (CellOp.runAll .unary "run" 0
    [.resilientStart "run" "deployment" "workflow" (.other 0)] ({}, [])).2 :=
  CellReach.runAll _ (Nat.le_refl 0) (.start 0)

/-- A completion within the range of dates commits with its deadline. -/
theorem exists_accepted {result : Except Thrown (ApplyEventOutcome × EventTxn)}
    (accepted : (match result with | .ok (.ok _, _) => true | _ => false) = true) :
    ∃ success txn, result = .ok (.ok success, txn) := by
  split at accepted
  · exact ⟨_, _, rfl⟩
  · cases accepted

theorem terminalEvent_commitsDeadline_second :
    CommitsDeadline .unary "run" 5 (completion 1000) retainedStart 1000 := by
  obtain ⟨success, txn, applied⟩ := @exists_accepted
    (applyEvent .unary true { completion 1000 with now := 5 } ⟨retainedStart, retainedStart.eventSequence⟩)
      (by decide +kernel)
  have guards : PassesGuards .unary "run" 5 (completion 1000) retainedStart success txn :=
    ⟨by decide +kernel, rfl, by decide +kernel, applied⟩
  exact (@terminalEvent_commitsDeadline .unary "run" (· ≤ ·) 0 5 1000 retainedStart _
    (completion 1000) success txn
    (some (.finite 1000)) none (fun _ _ _ _ => rfl) retainedStart_reach (by decide +kernel)
      rfl rfl guards).mpr (.inr (.inr (by decide +kernel)))

/-- The largest retention that the configuration accepts: the completion passes the guards and
is thrown away by its deadline. -/
theorem terminalEvent_deadlineOutOfRange :
    resolveRunRetentionMs (some (.finite 9007199254740991)) none = .ok 9007199254740991 ∧
      (∃ history, CellReach .unary "run" (· ≤ ·) 0 retainedStart history) ∧
      (completion 9007199254740991).data.data.finishes = true ∧
      (∃ success txn, PassesGuards .unary "run" 5 (completion 9007199254740991) retainedStart success txn) ∧
      EventAnswer.of (WorkflowRunDO.applyEvent .unary "run" 5 (completion 9007199254740991) retainedStart) =
        .thrown (.error "world-celld retention deadline is out of range for run") ∧
      ¬ CommitsDeadline .unary "run" 5 (completion 9007199254740991) retainedStart 9007199254740991 := by
  have thrown : EventAnswer.of
    (WorkflowRunDO.applyEvent .unary "run" 5 (completion 9007199254740991) retainedStart) =
      .thrown (.error "world-celld retention deadline is out of range for run") := by decide +kernel
  refine ⟨by decide +kernel, ⟨_, retainedStart_reach⟩, rfl, ?_, thrown, ?_⟩
  · obtain ⟨success, txn, applied⟩ := @exists_accepted (applyEvent .unary true
      { completion 9007199254740991 with now := 5 } ⟨retainedStart, retainedStart.eventSequence⟩)
        (by decide +kernel)
    exact ⟨success, txn, by decide +kernel, rfl, by decide +kernel, applied⟩
  · rintro ⟨answer, after, committed, -⟩
    rw [committed] at thrown
    cases thrown

end CelldWorld
