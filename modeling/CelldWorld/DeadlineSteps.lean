import CelldWorld.Spec.Records
import CelldWorld.TwinRuns
import CelldWorld.RecordSteps

namespace CelldWorld

namespace RunStore

/-- The run expires when its cleanup record is due. -/
def Mirrored (store : RunStore) : Prop :=
  ∀ record, store.cleanup = some record → ∃ run, store.run = some run ∧ run.expiredAt = some record.dueAt

/-- A run that has ended knows when. -/
def Completed (store : RunStore) : Prop :=
  ∀ run, store.run = some run → isTerminalWorkflowRunStatus run.status = true → run.completedAt.isSome

/-- When the run has ended, or ends by an event at time `now`. -/
def endsAt (store : RunStore) (now : Nat) : Nat :=
  match store.run with
  | some run => if isTerminalWorkflowRunStatus run.status then run.completedAt.getD now else now
  | none => now

end RunStore

/-- What one transaction does to the retention deadline and to its copy in the run. -/
inductive DeadlineStep (W : WorldContract) (op : CellOp) (before after : RunStore) : Prop
  | kept (dueAt : after.cleanup.map CleanupRecord.dueAt = before.cleanup.map CleanupRecord.dueAt)
      (expires : ∀ run, before.run = some run →
        ∃ later, after.run = some later ∧ later.expiredAt = run.expiredAt)
      (rewrites : before.Rewrites W after)
  | recorded {record : CleanupRecord} {run : WorkflowRun} (absent : before.cleanup = none)
      (cleanup : after.cleanup = some record) (stored : after.run = some run)
      (expires : run.expiredAt = some record.dueAt) (valid : W.workflowRunSchema run = true)
  | aged {request : EnforceRetentionRequest} {record next : CleanupRecord} {run expired : WorkflowRun}
      (enforces : op = .enforceRetention request) (held : before.cleanup = some record)
      (cleanup : after.cleanup = some next) (current : before.run = some run)
      (dueAt : next.dueAt = run.createdAt + request.retentionMs) (sooner : next.dueAt < record.dueAt)
      (stored : after.run = some expired) (expires : expired.expiredAt = some next.dueAt)
      (valid : W.workflowRunSchema expired = true)
  | forced {record next : CleanupRecord} (forces : op = .expireCleanupNow) (held : before.cleanup = some record)
      (cleanup : after.cleanup = some next)
      (expires : ∀ run, before.run = some run →
        ∃ later, after.run = some later ∧ later.expiredAt = some next.dueAt)
      (rewrites : before.Rewrites W after)

namespace DeadlineStep
variable {W : WorldContract} {op : CellOp} {before after : RunStore}

theorem of_same (cleanup : after.cleanup.map CleanupRecord.dueAt = before.cleanup.map CleanupRecord.dueAt)
    (run : after.run = before.run) : DeadlineStep W op before after :=
  .kept cleanup (fun current stored => ⟨current, run.trans stored, rfl⟩) (.inl run)

theorem refl : DeadlineStep W op before before :=
  .of_same rfl rfl

/-- The run still expires when its record is due. -/
theorem mirrored (step : DeadlineStep W op before after) (mirrored : before.Mirrored) : after.Mirrored := by
  intro last held
  cases step with
  | kept dueAt expires =>
    rw [held, Option.map_some] at dueAt
    obtain ⟨record, stored, same⟩ := Option.map_eq_some_iff.mp dueAt.symm
    obtain ⟨run, current, expiredAt⟩ := mirrored record stored
    obtain ⟨later, found, kept⟩ := expires run current
    exact ⟨later, found, kept.trans (expiredAt.trans (congrArg some same))⟩
  | recorded absent cleanup stored expires =>
    exact ⟨_, stored, Option.some.inj (cleanup.symm.trans held) ▸ expires⟩
  | aged enforces before cleanup current dueAt sooner stored expires =>
    exact ⟨_, stored, Option.some.inj (cleanup.symm.trans held) ▸ expires⟩
  | forced forces before cleanup expires =>
    obtain ⟨run, current, -⟩ := mirrored _ before
    obtain ⟨later, found, expiredAt⟩ := expires run current
    exact ⟨later, found, Option.some.inj (cleanup.symm.trans held) ▸ expiredAt⟩

theorem parsed (step : DeadlineStep W op before after) (parsed : before.Parsed W) : after.Parsed W := by
  cases step with
  | kept _ _ rewrites | forced _ _ _ _ rewrites => exact rewrites.parsed parsed
  | recorded _ _ stored _ valid | aged _ _ _ _ _ _ stored _ valid =>
    exact fun run found => Option.some.inj (stored.symm.trans found) ▸ valid

/-- What follows leaves the record and the run as they are. -/
theorem followed {middle : RunStore} (step : DeadlineStep W op before middle)
    (cleanup : after.cleanup = middle.cleanup) (run : after.run = middle.run) :
    DeadlineStep W op before after := by
  have rewritten (rewrites : before.Rewrites W middle) : before.Rewrites W after := rewrites.trans (.inl run)
  cases step with
  | kept dueAt expires rewrites =>
    exact .kept (cleanup ▸ dueAt) (fun current stored => run ▸ expires current stored) (rewritten rewrites)
  | recorded absent held stored expires valid =>
    exact .recorded absent (cleanup.trans held) (run.trans stored) expires valid
  | aged enforces held next current dueAt sooner stored expires valid =>
    exact .aged enforces held (cleanup.trans next) current dueAt sooner (run.trans stored) expires valid
  | forced forces held next expires rewrites =>
    exact .forced forces held (cleanup.trans next) (fun current stored => run ▸ expires current stored)
      (rewritten rewrites)

end DeadlineStep

section Events
variable {W : WorldContract} {runId : String} {now : Nat} {before after : RunStore} {events : List Event}

/-- Journaled events keep the expiry time of the run. -/
theorem Journals.expires (journals : Journals W runId now before events after) {run : WorkflowRun}
    (current : before.run = some run) : ∃ later, after.run = some later ∧ later.expiredAt = run.expiredAt := by
  induction journals with
  | start => exact ⟨run, current, rfl⟩
  | next _ _ journal ih =>
    obtain ⟨middle, stored, same⟩ := ih
    cases journal with
    | runCreated _ absent =>
      rw [absent] at stored
      cases stored
    | runStarted _ held | runFinished _ held | attrSet _ held =>
      obtain rfl := Option.some.inj (held.symm.trans stored)
      exact ⟨_, rfl, same⟩
    | _ => exact ⟨middle, stored, same⟩

/-- A terminal run is never rewritten, and a run ends when it is finished. -/
theorem Journals.endsAt (journals : Journals W runId now before events after) (completed : before.Completed)
    {run : WorkflowRun} (current : after.run = some run)
    (terminal : isTerminalWorkflowRunStatus run.status = true) :
    run.completedAt = some (before.endsAt now) := by
  induction journals generalizing run with
  | start =>
    obtain ⟨completedAt, same⟩ := Option.isSome_iff_exists.mp (completed run current terminal)
    simp [RunStore.endsAt, current, terminal, same]
  | next journals stamped journal ih =>
    cases journal with
    | runCreated =>
      obtain rfl := Option.some.inj current
      cases terminal
    | runStarted =>
      obtain rfl := Option.some.inj current
      cases terminal
    | @runFinished held status ends stored active =>
      obtain rfl := Option.some.inj current
      have unfinished : before.endsAt now = now := by
        cases first : before.run with
        | none => simp [RunStore.endsAt, first]
        | some earlier =>
          cases already : isTerminalWorkflowRunStatus earlier.status with
          | false => simp [RunStore.endsAt, first, already]
          | true =>
            have ended := journals.isTerminal (by simp [RunStore.isTerminal, first, already])
            simp [RunStore.isTerminal, stored, active] at ended
      rw [unfinished]
      exact congrArg some stamped.createdAt
    | attrSet _ stored active =>
      obtain rfl := Option.some.inj current
      cases active.symm.trans terminal
    | _ => exact ih current terminal

/-- In every reachable cell a run that has ended knows when. -/
theorem completed_invariant {clock : Nat → Nat → Prop} :
    CellInvariant W runId clock fun _ store _ => store.Completed where
  start _ run current := by cases current
  tick _ holds := holds
  journal holds stamped journal := fun run current terminal =>
    ((Journals.single stamped journal).endsAt holds current terminal).symm ▸ rfl
  quiet holds quiet := by
    intro run current terminal
    have same := quiet.run
    rw [current, Option.map_some] at same
    obtain ⟨earlier, stored, unexpired⟩ := Option.map_eq_some_iff.mp same.symm
    have completedAt := congrArg WorkflowRun.completedAt unexpired
    have status := congrArg WorkflowRun.status unexpired
    simp only [WorkflowRun.unexpired] at completedAt status
    exact completedAt ▸ holds earlier stored (status ▸ terminal)

end Events

variable {W : WorldContract} {runId : String} {now : Nat} {before after store : RunStore} {op : CellOp}

namespace WorkflowRunDO

theorem applyEvent_deadline {request : ApplyEventRequest} {outcome : ApplyEventOutcome}
    (call : applyEvent W runId now request store = .ok (outcome, after)) : DeadlineStep W op store after := by
  rcases applyEvent_ok call with ⟨-, rfl⟩ | ⟨success, txn, -, unexpired, applied, commit⟩
  · exact .refl
  obtain ⟨-, -, events, journals⟩ := applyEvent_journals applied
  have kept : DeadlineStep W op store txn.commit :=
    .kept (congrArg (Option.map CleanupRecord.dueAt) journals.retention.1) (fun run => journals.expires)
      (applyEvent_rewrites applied)
  obtain ⟨scheduled, committed, -⟩ := commitOutcome_ok commit
  cases committed with
  | active => exact kept.followed rfl rfl
  | ended => exact kept.followed rfl rfl
  | retained _ _ _ absent valid => exact .recorded (journals.retention.1.symm.trans absent) rfl rfl rfl valid

theorem forceDisposeHook_deadline {hookId token : String} {claimedBy : HookTokenOwner} {journaled : Bool}
    (call : forceDisposeHook W runId now hookId token claimedBy store = .ok (journaled, after)) :
    DeadlineStep W op store after := by
  rcases forceDisposeHook_ok call with ⟨same, events, journals⟩ | ⟨hook, -, -, -, -, rfl⟩
  · exact .of_same (congrArg (Option.map CleanupRecord.dueAt) journals.retention.1) same
  · exact .of_same rfl rfl

end WorkflowRunDO

/-- Every page but the payload page keeps the deadline, and that page finds nothing to do before its phase. -/
theorem PageStep.deadline {expected : CleanupRecord} {page : CleanupPage}
    (step : PageStep now expected page store after)
    (unpaid : expected.phase ≠ .payload ∨ store.beforePayload = true) : DeadlineStep W op store after := by
  cases step with
  | stale same =>
    obtain ⟨alarm, rfl⟩ := same
    exact .of_same rfl rfl
  | batch _ phase deletes =>
    rw [deletes.early (unpaid.resolve_left fun other => other phase)]
    exact .refl
  | committed paged phase stored samePhase sameGeneration commit =>
    obtain ⟨run, -, -⟩ := @RunStore.deleteAll_lifecycle store page.keys
      fun _ member => .inl (CleanupPage.keys_indexed member)
    rw [commit]
    exact .of_same (by rw [stored]; exact congrArg some CleanupPage.update_dueAt) run

/-- The transactions that keep the retention of a run: all but those of `cleanupNow`, which
moves the deadline to the present, and of the payload page, which deletes the run. -/
def CellOp.retains : CellOp → Bool
  | .expireCleanupNow => false
  | .executeCleanup expected _ => expected.phase ≠ .payload
  | _ => true

/-- Before payload deletion, or without it, every transaction of the cell is one step of its deadline. -/
theorem CellStep.deadline (step : CellStep W runId now store op after)
    (unpaid : op.retains = true ∨ store.beforePayload = true) : DeadlineStep W op store after := by
  cases step with
  | idle => exact .refl
  | applied call => exact WorkflowRunDO.applyEvent_deadline call
  | disposed call => exact WorkflowRunDO.forceDisposeHook_deadline call
  | @queued op =>
    obtain ⟨claims, payloads, same⟩ : QueueOp.Writes store (op.run now store) := op.run_writes
    exact .of_same (by rw [same]) (by rw [same])
  | fenced => exact .of_same rfl rfl
  | scheduled absent _ _ _ _ valid => exact .recorded absent rfl rfl rfl valid
  | checked => exact .of_same rfl rfl
  | @aged request run _ next alive current deadline changes valid =>
    subst deadline
    obtain ⟨dueAt, ⟨absent, -⟩ | ⟨record, stored, -, -, -, sooner, -⟩⟩ :=
      WorkflowRunDO.maximumAgeRecord_change changes
    · exact .recorded absent rfl rfl (congrArg some dueAt.symm) valid
    · exact .aged rfl stored rfl current dueAt sooner rfl (congrArg some dueAt.symm) valid
  | due stored _ valid =>
    refine .forced rfl stored rfl (fun run current => ?_) ?_
    · exact ⟨_, congrArg (Option.map _) current, rfl⟩
    · cases current : store.run with
      | none => exact .inl current.symm
      | some run => exact .inr ⟨_, rfl, valid run current⟩
  | rearmed => exact .of_same rfl rfl
  | paged step => exact step.deadline (unpaid.imp_left of_decide_eq_true)
  | failed stored => exact .of_same (by rw [stored]; rfl) rfl
  | @swept _ _ keys _ _ _ derived =>
    obtain ⟨run, cleanup, -⟩ := @RunStore.deleteAll_lifecycle store keys fun key member =>
      .inr (derived key member)
    exact .of_same (congrArg (Option.map CleanupRecord.dueAt) cleanup) run
  | terminalFailed => exact .of_same rfl rfl

theorem CellOp.deadlineStep (W : WorldContract) (runId : String) (now : Nat) (op : CellOp) {store : RunStore}
    (unpaid : op.retains = true ∨ store.beforePayload = true) :
    DeadlineStep W op store (op.run W runId now store) :=
  (op.run_step W runId now store).deadline unpaid

/-- In every reachable cell before payload deletion the run was parsed and expires when
its cleanup record is due. -/
theorem CellReach.deadlines {W : WorldContract} {runId : String} {clock : Nat → Nat → Prop} {now : Nat}
    {store : RunStore} {history : List Event} (reach : CellReach W runId clock now store history)
    (before : store.beforePayload = true) : store.Mirrored ∧ store.Parsed W := by
  induction reach with
  | start =>
    refine ⟨fun record held => ?_, fun run current => ?_⟩
    · cases held
    · cases current
  | @next earlier now store history op reach tick ih =>
    cases early : store.beforePayload with
    | false =>
      rw [(CellOp.run_remains W runId now op early).payload] at before
      cases before
    | true =>
      obtain ⟨mirrored, parsed⟩ := ih early
      have step := op.deadlineStep W runId now (.inr early)
      exact ⟨step.mirrored mirrored, step.parsed parsed⟩

end CelldWorld
