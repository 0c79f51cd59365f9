import CelldWorld.HookFences
import CelldWorld.EventOrigins
import CelldWorld.Spec.Hooks

namespace CelldWorld

/-- The hook was created with the token, by an event of the history of its run. -/
def CreatedIn (history : List Event) (hookId token : String) : Prop :=
  ∃ event ∈ history, ∃ data, event.data = .hookCreated hookId data ∧ data.token = token

theorem CreatedIn.append {history events : List Event} {hookId token : String}
    (created : CreatedIn history hookId token) : CreatedIn (history ++ events) hookId token := by
  obtain ⟨event, member, found⟩ := created
  exact ⟨event, List.mem_append_left _ member, found⟩

/-- A hook of the run, created with its token and found under its ID. -/
structure HookOf (runId : String) (history : List Event) (hookId : String) (hook : Hook) : Prop where
  owner : hookOwner hook = ⟨runId, hookId⟩
  created : CreatedIn history hookId hook.token

section Answers
variable {W : WorldContract} {runId hookId claimId : String} {earlier now : Nat} {store : RunStore}
    {history : List Event}
variable {hook : Hook} {token : Option String}

theorem CellReach.hookOf (reach : CellReach W runId (· ≤ ·) earlier store history)
    (unexpired : ¬ (store.tombstoneFrom now).isSome) (stored : store.hooks[hookId]? = some hook) :
    HookOf runId history hookId hook := by
  have before := RunStore.beforePayload_of_unexpired (Option.not_isSome_iff_eq_none.mp unexpired)
  have created := (((hooksCreated_invariant W runId (· ≤ ·)).reach reach).1 before).2
  exact ⟨created.owner hookId hook stored, created.hooks hookId hook stored⟩

theorem getCommittedHook_hookOf (reach : CellReach W runId (· ≤ ·) earlier store history)
    (answered : WorkflowRunDO.getCommittedHook now hookId token store = .ok (some hook)) :
    HookOf runId history hookId hook ∧ ∀ wanted ∈ token, hook.token = wanted := by
  unfold WorkflowRunDO.getCommittedHook at answered
  split at answered
  · cases answered
  split at answered
  · cases answered
  rename_i alive
  have unexpired : ¬ (store.tombstoneFrom now).isSome := fun expired => alive (.inl expired)
  obtain ⟨stored, matching⟩ := Option.filter_eq_some_iff.mp (Except.ok.inj answered)
  refine ⟨reach.hookOf unexpired stored, fun wanted asked => ?_⟩
  rw [Option.mem_def.mp asked, Option.all_some] at matching
  exact of_decide_eq_true matching

theorem resolveExpiredHookClaim_hookOf (reach : CellReach W runId (· ≤ ·) earlier store history)
    (answered : (WorkflowRunDO.resolveExpiredHookClaim now hookId claimId token store).map
      (·.1) = .ok (some hook)) :
    HookOf runId history hookId hook ∧ ∀ wanted ∈ token, hook.token = wanted := by
  obtain ⟨⟨found, after⟩, answered, rfl⟩ := map_ok.mp answered
  unfold WorkflowRunDO.resolveExpiredHookClaim at answered
  split at answered
  · cases answered
  split at answered
  · cases answered
  rename_i unexpired
  split at answered
  · cases answered
  split at answered
  · rename_i present
    cases answered
    obtain ⟨stored, matching⟩ := Option.filter_eq_some_iff.mp present
    refine ⟨reach.hookOf unexpired stored, fun wanted asked => ?_⟩
    rw [Option.mem_def.mp asked, Option.all_some] at matching
    exact of_decide_eq_true matching
  · cases answered

/-- A journaled creation has its event, and a hook that comes with it is that of the claimer. -/
theorem resolveForcedHookClaim_created {request : ForcedClaimRequest} {resolution : ForcedClaimResolution}
    (reach : CellReach W runId (· ≤ ·) earlier store history)
    (answered : (WorkflowRunDO.resolveForcedHookClaim now request store).map (·.1) = .ok resolution)
    (journaled : resolution.journaled = true) :
    CreatedIn history request.hookId request.token ∧
      ∀ hook ∈ resolution.hook, HookOf runId history request.hookId hook ∧ hook.token = request.token := by
  obtain ⟨⟨found, after⟩, call, rfl⟩ := map_ok.mp answered
  have resolves : (HookResolver.forced request).answer now store = some true := by
    simp only [HookResolver.answer, call, Except.toOption, Option.map_some]
    exact congrArg some journaled
  obtain ⟨-, event, member, data, creates, sameToken, -⟩ := HookResolver.committed reach resolves
  refine ⟨⟨event, member, data, creates, sameToken⟩, fun hook carried => ?_⟩
  unfold WorkflowRunDO.resolveForcedHookClaim at call
  split at call
  · cases call
  split at call
  · cases call
    cases journaled
  rename_i unexpired
  unfold CelldWorld.resolveForcedHookClaim at call
  simp only at call
  split at call
  · cases call
    simp only [Option.mem_def] at carried
    split at carried
    · obtain ⟨stored, matching⟩ := Option.filter_eq_some_iff.mp carried
      exact ⟨reach.hookOf unexpired stored, of_decide_eq_true matching⟩
    · cases carried
  · cases call
    cases journaled

theorem attachHookReplayPreload_hookToIndex {success : ApplyEventSuccess} :
    (attachHookReplayPreload W store success).hookToIndex = success.hookToIndex := by
  unfold attachHookReplayPreload
  split
  · rfl
  split
  · rfl
  simp only
  split <;> rfl

theorem attachSkippedEvents_hookToIndex {success : ApplyEventSuccess} {event : Event} {eventCount : Nat} :
    (attachSkippedEvents W store success event eventCount).hookToIndex = success.hookToIndex := by
  unfold attachSkippedEvents
  split
  · rfl
  split <;> rfl

theorem finalizeEventPage_hookToIndex {success answer : ApplyEventSuccess} {params : Option CreateEventParams}
    (finalized : finalizeEventPage W store (.ok success) params = .ok answer) :
    answer.hookToIndex = success.hookToIndex := by
  unfold finalizeEventPage at finalized
  simp only at finalized
  have limited : (if success.run.isSome ∧ success.maxEvents = none then
      { success with maxEvents := some W.getMaxEventsPerRun } else success).hookToIndex =
        success.hookToIndex := by
    split <;> rfl
  split at finalized
  · cases finalized
    exact limited
  · cases finalized
    exact limited
  split at finalized
  · cases finalized
    exact attachHookReplayPreload_hookToIndex.trans limited
  split at finalized
  · cases finalized
    exact limited
  · cases finalized
    exact limited
  · cases finalized
    exact attachSkippedEvents_hookToIndex.trans limited

theorem commitOutcome_hookToIndex {request : ApplyEventRequest} {sequence : Nat}
    {success answer : ApplyEventSuccess} {txn : EventTxn} {after : RunStore}
    (commit : WorkflowRunDO.commitOutcome W request now sequence success txn = .ok (.ok answer, after)) :
    answer.hookToIndex = success.hookToIndex := by
  unfold WorkflowRunDO.commitOutcome at commit
  obtain ⟨⟨scheduled, retained⟩, schedule, run⟩ := bind_ok.mp commit
  obtain ⟨finalized, -⟩ := Prod.mk.inj (Except.ok.inj run)
  have published : (WorkflowRunDO.setPublicationDeadline now scheduled).hookToIndex = scheduled.hookToIndex := by
    unfold WorkflowRunDO.setPublicationDeadline
    split <;> rfl
  have kept : scheduled.hookToIndex = success.hookToIndex := by
    unfold WorkflowRunDO.scheduleTerminalRetention at schedule
    split at schedule
    · cases schedule
      rfl
    split at schedule
    · obtain ⟨dueAt, -, schedule⟩ := bind_ok.mp schedule
      obtain ⟨run, -, schedule⟩ := bind_ok.mp schedule
      cases schedule
      rfl
    · cases schedule
      rfl
  exact (finalizeEventPage_hookToIndex finalized).trans (published.trans kept)

theorem HooksCreated.marks (created : HooksCreated runId store history) (marks : HookMarks store history) :
    store.HooksMarked := by
  intro id hook stored
  obtain ⟨event, member, data, creates, -⟩ := created.hooks id hook stored
  refine (marks.marked id).mp ⟨event, member, ?_⟩
  rw [creates]
  rfl

/-- The hook that an event answers to be indexed was created by an event of the history. -/
theorem applyEvent_hookToIndex {request : ApplyEventRequest} {answer : ApplyEventSuccess}
    (reach : CellReach W runId (· ≤ ·) earlier store history)
    (answered : (WorkflowRunDO.applyEvent W runId now request store).map (·.1) = .ok (.ok answer))
    (indexed : answer.hookToIndex = some hook) :
    ∃ id, HookOf runId (history ++ appended W store ((CellOp.applyEvent request).run W runId now store)) id
      hook := by
  obtain ⟨⟨outcome, after⟩, call, same⟩ := map_ok.mp answered
  obtain rfl : outcome = .ok answer := same
  have ran : (CellOp.applyEvent request).run W runId now store = after := by
    simp only [CellOp.run, call, transaction]
  rcases WorkflowRunDO.applyEvent_ok call with ⟨⟨refusal, refused⟩, -⟩ |
    ⟨success, txn, ofRun, unexpired, applied, commit⟩
  · cases refused
  have before := RunStore.beforePayload_of_unexpired unexpired
  have created := (((hooksCreated_invariant W runId (· ≤ ·)).reach reach).1 before).2
  have marks := (((hookMarks_invariant W runId (· ≤ ·)).reach reach).1 before).2
  have hooks := applyEvent_hooks (created.marks marks) applied
  rw [commitOutcome_hookToIndex commit] at indexed
  obtain ⟨id, stored⟩ := hooks.indexed hook indexed
  obtain ⟨-, -, events, journals⟩ := applyEvent_journals applied
  obtain rfl := ofRun
  have journals : Journals W request.runId now store events txn.commit := journals
  have quiet := WorkflowRunDO.commitOutcome_quiet (applyEvent_answers applied) commit
  rw [ran, Transition.appended journals quiet]
  have next := (hooksCreated_invariant W request.runId (· ≤ ·)).journals created journals
  exact ⟨id, next.owner id hook stored, next.hooks id hook stored⟩

/-- A forced disposal comes from a call that names its claimer, where no client may name one. -/
theorem CellOp.disposes {op : CellOp} {event : Event} {id : String} {claimedBy : HookTokenOwner}
    (drops : W.DropsForceClaims) (reach : CellReach W runId (· ≤ ·) earlier store history)
    (member : event ∈ appended W store (op.run W runId now store))
    (disposal : event.data = .hookDisposed id token (some claimedBy)) :
    ∃ taken, token = some taken ∧ op = .forceDisposeHook id taken claimedBy := by
  cases reach.origin member with
  | request request ctx same parsed supported records =>
    have data := records.data
    rw [disposal] at data
    have sent : ctx.data.data = request.data.data := congrArg (·.data.data) same
    cases event : ctx.data.data <;> simp [event, CreateEvent.Records, CreateEvent.record] at data
    case hookDisposed =>
      obtain ⟨-, -, rfl⟩ := data
      exact absurd (sent.symm.trans event) (drops request.data parsed _ _ claimedBy)
  | forced hookId taken claimer data =>
    rw [disposal] at data
    cases data
    exact ⟨taken, rfl, rfl⟩

/-- A forced disposal appends its own event only. -/
theorem CellOp.forceDisposeHook_appended {event : Event} {id token : String} {claimedBy : HookTokenOwner}
    (reach : CellReach W runId (· ≤ ·) earlier store history)
    (member : event ∈ appended W store ((CellOp.forceDisposeHook id token claimedBy).run W runId now store)) :
    event.data = .hookDisposed id (some token) (some claimedBy) := by
  cases reach.origin member with
  | forced hookId taken claimer data => exact data

end Answers

end CelldWorld
