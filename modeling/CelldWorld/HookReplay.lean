import CelldWorld.EventOrigins
import CelldWorld.HookTokenStore
import CelldWorld.LogGrammar

namespace CelldWorld

open EventData

/-- The hook whose creation an event decides: created, or refused for the token. -/
def EventData.hookCreation : EventData → Option String
  | .hookCreated id _ | .hookConflict id _ _ _ => some id
  | _ => none

namespace ApplyEventContext
variable (W : WorldContract) (ctx : ApplyEventContext)

/-- The event that `buildEvent` hands to its schema. -/
def event (slot : Nat) (data : EventData) : Event :=
  { eventId := W.slotToEventId slot
    runId := ctx.runId
    createdAt := ctx.now
    occurredAt := ctx.params.bind (·.occurredAt)
    resumeId := if data.isHookReceived then ctx.resumeId else none
    specVersion := ctx.specVersion W
    data }

/-- The other hook that the request reports as the holder of the token. -/
def otherHolder (hookId : String) : Option HookTokenOwner :=
  ctx.tokenHolder.filter fun holder => holder ≠ ⟨ctx.runId, hookId⟩

def conflictData (hookId : String) (eventData : HookCreatedData) (holder : HookTokenOwner) : EventData :=
  .hookConflict hookId eventData.token holder.runId
    (if eventData.force = some true then ctx.forceRefusedReason else none)

/-- The request finds an active run of the current spec version. -/
def findsActiveRun (store : RunStore) : Bool :=
  ctx.specVersion W = W.specVersionCurrent && store.run.any fun run =>
    run.specVersion = W.specVersionCurrent && !isTerminalWorkflowRunStatus run.status

end ApplyEventContext

namespace ApplyEventRequest
variable (W : WorldContract) (runId : String) (now : Nat) (store : RunStore) (request : ApplyEventRequest)

/-- The request passes every check of its run's cell before the event core. -/
def admitted : Bool :=
  (parseApplyEventRequest W request).isOk && request.runId = runId &&
    (checkCleanup request.cleanup).isOk && (store.tombstoneFrom now).isNone

/-- A repeated `hook_created`, unfenced and on an active run, that still names another
hook as the holder of its token. -/
def replaysConflict : Bool :=
  match request.data.data with
  | .hookCreated id eventData =>
    let ctx : ApplyEventContext := { request with now }
    request.admitted W runId now store && ctx.findsActiveRun W store &&
      store.hookEvent[id]?.isSome && !ctx.hookClaimCancelled store &&
      (ctx.otherHolder id).any fun holder =>
        W.eventSchema (ctx.event W (store.eventSequence + 1) (ctx.conflictData id eventData holder))
  | _ => false

end ApplyEventRequest

/-- The transaction applies a replay that another hook's hold on the token meets first. -/
def CellOp.replaysConflict (W : WorldContract) (runId : String) (now : Nat) (store : RunStore) :
    CellOp → Bool
  | .applyEvent request => request.replaysConflict W runId now store
  | _ => false

/-- Every creation of the log is final: nothing later decides the creation of its hook again. -/
def CreationsFinal (log : List Event) : Prop :=
  ∀ history event rest, log = history ++ event :: rest →
    ∀ id, event.data.hookCreation = some id → ¬ Occurs createdHook id history

theorem CreationsFinal.nil : CreationsFinal [] := by
  intro history event rest split
  cases history <;> cases split

theorem CreationsFinal.snoc {log : List Event} {event : Event} (final : CreationsFinal log)
    (fresh : ∀ id, event.data.hookCreation = some id → ¬ Occurs createdHook id log) :
    CreationsFinal (log ++ [event]) := by
  intro history other rest split
  rcases List.eq_nil_or_concat rest with rfl | ⟨front, last, rfl⟩
  · obtain ⟨rfl, same⟩ := List.append_inj' split rfl
    cases same
    exact fresh
  · have split : log ++ [event] = (history ++ other :: front) ++ [last] := by simpa using split
    exact final history other front (List.append_inj' split rfl).1

/-- Events that decide no creation leave the creations of the log final. -/
theorem CreationsFinal.append_other {log events : List Event} (final : CreationsFinal log)
    (other : ∀ event ∈ events, event.data.hookCreation = none) : CreationsFinal (log ++ events) := by
  induction events generalizing log with
  | nil => rwa [List.append_nil]
  | cons event events ih =>
    have first : CreationsFinal (log ++ [event]) :=
      final.snoc fun id creates => by cases (other event (.head _)).symm.trans creates
    have rest := ih first fun later member => other later (.tail _ member)
    rwa [List.append_assoc] at rest

/-- A hook is marked exactly when its creation was journaled, and then there is a run. -/
structure HookMarks (store : RunStore) (history : List Event) : Prop where
  marked : ∀ id, Occurs createdHook id history ↔ store.hookEvent[id]?.isSome = true
  started : ∀ id : String, store.hookEvent[id]?.isSome = true → store.run.isSome = true

section Marks
variable {W : WorldContract} {before after : RunStore} {event : Event} {history : List Event}

theorem Journal.run_isSome (journal : Journal W before event after) (started : before.run.isSome = true) :
    after.run.isSome = true := by
  cases journal <;> first | exact started | rfl

theorem Journal.hookMarks (journal : Journal W before event after) (marks : HookMarks before history) :
    HookMarks after (history ++ [event]) := by
  have frame (same : after.hookEvent = before.hookEvent) (other : event.data.createdHook = none) :
      HookMarks after (history ++ [event]) := by
    refine ⟨fun id => ?_, fun id => ?_⟩ <;> rw [same]
    · rw [occurs_snoc, other, marks.marked id]
      exact or_iff_left (by simp)
    · exact fun marked => journal.run_isSome (marks.started id marked)
  cases journal with
  | @hookCreated run target eventData data current active fresh =>
    have stored : (((before.putHook (event.stamp.createdHook target eventData
        eventData.forceClaimedFrom)).putHookEvent target event.eventId).append event).hookEvent =
        before.hookEvent.insert target event.eventId := rfl
    refine ⟨fun id => ?_, fun id _ => ?_⟩
    · rw [stored, Std.ExtTreeMap.getElem?_insert, occurs_snoc, data, createdHook, marks.marked id]
      by_cases same : target = id <;> simp [same]
    · exact Option.isSome_iff_exists.mpr ⟨run, current⟩
  | runFinished known | stepUpdated known =>
    refine frame rfl ?_
    cases data : event.data <;> simp [data, Event.endsAs, Event.stepUpdate, createdHook] at known ⊢
  | runCreated data | runStarted data | runCancelledAgain data | attrSet data | stepCreated data
  | hookConflict data | hookReceived data | hookDisposed data | hookForced data | waitCreated data
  | waitCompleted data => exact frame rfl (by rw [data]; rfl)

theorem hookMarks_invariant (W : WorldContract) (runId : String) (clock : Nat → Nat → Prop) :
    CellInvariant W runId clock fun _ => HookMarks where
  start _ := ⟨fun _ => by simp, fun _ => by simp⟩
  tick _ marks := marks
  journal marks _ journal := journal.hookMarks marks
  quiet marks quiet := by
    refine ⟨fun id => quiet.hookEvent ▸ marks.marked id, fun id marked => ?_⟩
    have started := marks.started id (quiet.hookEvent ▸ marked)
    have same := congrArg Option.isSome quiet.run
    rwa [Option.isSome_map, Option.isSome_map, started] at same

end Marks

/-- What the event core does with a `hook_created`: it is refused before the hook
is looked at, or it reaches `applyHookCreated` on an active run. -/
theorem applyEvent_hookCreated {W : WorldContract} {ctx : ApplyEventContext} {txn : EventTxn} {id : String}
    {eventData : HookCreatedData} (request : ctx.data.data = .hookCreated id eventData) :
    applyEvent W true ctx txn =
      if ctx.specVersion W ≠ W.specVersionCurrent then
        .ok (ctx.specVersionRefusal W (ctx.specVersion W), txn)
      else match txn.store.run with
        | none => .ok (ctx.runNotFound, txn)
        | some run =>
          if run.specVersion ≠ W.specVersionCurrent then
            .ok (ctx.specVersionRefusal W run.specVersion, txn)
          else if isTerminalWorkflowRunStatus run.status then
            .ok (failure .entityConflict
              s!"Cannot create new entities on run in terminal state \"{run.status.name}\"", txn)
          else ctx.applyHookCreated W id eventData txn := by
  have boot : ctx.bootstrapRun W txn.store.run txn = .ok (txn.store.run, none, txn) := by
    unfold ApplyEventContext.bootstrapRun ApplyEventContext.bootstrapData
    simp only [request]
    cases txn.store.run <;> rfl
  have guarded (currentRun : Option WorkflowRun) : ctx.applyGuarded W true currentRun none txn =
      if currentRun = none then .ok (ctx.runNotFound, txn) else ctx.applyHookCreated W id eventData txn := by
    simp [ApplyEventContext.applyGuarded, stepGuard, CreateEvent.stepTarget, hookResumeGuard, hookGuard,
      request, ApplyEventContext.skipRunValidation, ApplyEventContext.isRunStarted,
      ApplyEventContext.applyWrites]
  have skip : ctx.skipRunValidation = false := by simp [ApplyEventContext.skipRunValidation, request]
  unfold applyEvent
  split
  · rfl
  simp only [skip, Bool.false_eq_true, if_false, boot]
  cases txn.store.run with
  | none => exact guarded none
  | some run =>
    simp only [bind, Except.bind]
    split
    · rfl
    cases terminal : isTerminalWorkflowRunStatus run.status with
    | true =>
      simp [ApplyEventContext.terminalRunGuard, terminal, request, W.hookCreated_isChild]
    | false =>
      simp [ApplyEventContext.terminalRunGuard, terminal, guarded]

namespace WorkflowRunDO
variable {W : WorldContract} {runId : String} {now : Nat} {store after : RunStore}
variable {request : ApplyEventRequest} {outcome : ApplyEventOutcome}

/-- An admitted request is handed to the event core, whether or not it defers the cleanup. -/
theorem applyEventDeferring_of_admitted {defers : Bool} (admitted : request.admitted W runId now store = true) :
    applyEventDeferring W defers runId now request store = (do
      let (outcome, txn) ← CelldWorld.applyEvent W defers { request with now }
        { store, eventSequence := store.eventSequence }
      match outcome with
      | .fail failure => .ok (.fail failure, txn.store)
      | .ok success => commitOutcome W request now store.eventSequence success txn) := by
  simp only [ApplyEventRequest.admitted, Bool.and_eq_true, decide_eq_true_eq] at admitted
  obtain ⟨⟨⟨parses, ofRun⟩, checked⟩, unexpired⟩ := admitted
  have absent : store.tombstoneFrom now = none := by simpa using unexpired
  obtain ⟨parsed, parse⟩ := isOk_iff.mp parses
  obtain rfl := parseApplyEventRequest_ok parse
  obtain ⟨⟨⟩, check⟩ := isOk_iff.mp checked
  unfold applyEventDeferring
  rw [bind_of_ok parse, if_neg (not_not.mpr ofRun), bind_of_ok check]
  generalize store.tombstoneFrom now = expired at absent ⊢
  subst absent
  rfl

theorem applyEvent_of_admitted (admitted : request.admitted W runId now store = true) :
    applyEvent W runId now request store = (do
      let (outcome, txn) ← CelldWorld.applyEvent W true { request with now }
        { store, eventSequence := store.eventSequence }
      match outcome with
      | .fail failure => .ok (.fail failure, txn.store)
      | .ok success => commitOutcome W request now store.eventSequence success txn) :=
  applyEvent_deferring.trans (applyEventDeferring_of_admitted admitted)

/-- A request that is not admitted is answered only because its run expired. -/
theorem applyEvent_of_not_admitted (refused : request.admitted W runId now store = false)
    (call : applyEvent W runId now request store = .ok (outcome, after)) :
    ∃ tombstone, store.tombstoneFrom now = some tombstone ∧ outcome = runExpired request.runId tombstone ∧
      after = store := by
  unfold applyEvent at call
  obtain ⟨parsed, parse, checked⟩ := bind_ok.mp call
  obtain rfl := parseApplyEventRequest_ok parse
  split at checked
  · cases checked
  rename_i ofRun
  obtain ⟨_, check, call⟩ := bind_ok.mp checked
  split at call
  · rename_i tombstone expired
    obtain ⟨rfl, rfl⟩ := Prod.mk.inj (Except.ok.inj call)
    exact ⟨tombstone, expired, rfl, rfl⟩
  · rename_i unexpired
    have ofRun : parsed.runId = runId := by simpa using ofRun
    simp [ApplyEventRequest.admitted, parse, ofRun, check, unexpired, Except.isOk, Except.toBool] at refused

end WorkflowRunDO

/-- Which requests journal the creation of a hook. -/
theorem ApplyEventContext.MayJournal.hookCreation {W : WorldContract} {ctx : ApplyEventContext}
    {event : Event} {id : String} (records : ctx.MayJournal W event)
    (creates : event.data.hookCreation = some id) :
    ∃ eventData, ctx.data.data = .hookCreated id eventData := by
  have data := records.data
  generalize ctx.data.data = request at data
  cases request with
  | hookCreated target eventData =>
    rcases data with ⟨_, same⟩ | ⟨_, _, _, same⟩ <;> rw [same] at creates <;> cases creates <;>
      exact ⟨eventData, rfl⟩
  | runStarted | stepStarted =>
    rcases data with same | ⟨_, same⟩ <;> rw [same] at creates <;> cases creates
  | _ => rw [data] at creates; cases creates

section Replay
variable {W : WorldContract} {ctx : ApplyEventContext} {txn txn' : EventTxn} {id : String}
variable {eventData : HookCreatedData} {success : ApplyEventSuccess}

/-- A `hook_created` that succeeds found an active run and applied its hook. -/
theorem applyEvent_hookCreated_ok (request : ctx.data.data = .hookCreated id eventData)
    (run : applyEvent W true ctx txn = .ok (.ok success, txn')) :
    ctx.findsActiveRun W txn.store = true ∧
      ctx.applyHookCreated W id eventData txn = .ok (.ok success, txn') := by
  rw [applyEvent_hookCreated request] at run
  split at run
  · cases run
  rename_i supported
  split at run
  · cases run
  rename_i stored current
  split at run
  · cases run
  rename_i version
  split at run
  · cases run
  rename_i active
  refine ⟨?_, run⟩
  simp only [ne_eq, not_not, Bool.not_eq_true] at supported version active
  simp [ApplyEventContext.findsActiveRun, supported, current, version, active]

theorem applyEvent_hookCreated_of_active (request : ctx.data.data = .hookCreated id eventData)
    (active : ctx.findsActiveRun W txn.store = true) :
    applyEvent W true ctx txn = ctx.applyHookCreated W id eventData txn := by
  simp only [ApplyEventContext.findsActiveRun, Bool.and_eq_true, decide_eq_true_eq,
    Option.any_eq_true] at active
  obtain ⟨supported, run, current, version, active⟩ := active
  have active : isTerminalWorkflowRunStatus run.status = false := by simpa using active
  simp [applyEvent_hookCreated request, supported, current, version, active]

/-- On a marked hook the application journals another hook's conflict or nothing. -/
theorem ApplyEventContext.applyHookCreated_marked (marked : txn.store.hookEvent[id]?.isSome = true)
    (run : ctx.applyHookCreated W id eventData txn = .ok (.ok success, txn')) :
    ctx.hookClaimCancelled txn.store = false ∧
      ((∃ holder, ctx.otherHolder id = some holder ∧
          W.eventSchema (ctx.event W (txn.eventSequence + 1) (ctx.conflictData id eventData holder)) = true) ∨
        ctx.otherHolder id = none ∧ txn' = txn ∧ ∃ hook, txn.store.hooks[id]? = some hook ∧
          success = { hook := some hook, hookToIndex := some hook }) := by
  unfold ApplyEventContext.applyHookCreated at run
  split at run
  · cases run
  rename_i unfenced
  refine ⟨by simpa using unfenced, ?_⟩
  split at run
  · rename_i holder other
    unfold ApplyEventContext.applyHookConflict at run
    obtain ⟨built, build, run⟩ := bind_ok.mp run
    obtain ⟨event, parsed, _⟩ := bind_ok.mp build
    exact .inl ⟨holder, other, (parseWith_ok.mp parsed).1⟩
  · rename_i free
    obtain ⟨answer, rfl⟩ := Prod.mk.inj (Except.ok.inj run)
    refine .inr ⟨free, rfl, ?_⟩
    unfold ApplyEventContext.applyHookReplay at answer
    split at answer
    · rename_i existing stored
      split at answer
      · exact ⟨existing, stored, (ApplyEventOutcome.ok.inj answer).symm⟩
      · cases answer
    · cases answer

end Replay

section Steps
variable {W : WorldContract} {runId : String} {now : Nat} {store after : RunStore}
variable {request : ApplyEventRequest} {op : CellOp}

/-- A conflicting replay appends the conflict of its hook. -/
theorem ApplyEventRequest.replaysConflict_appends (replays : request.replaysConflict W runId now store = true) :
    ∃ event ∈ appended W store (CellOp.run W runId now (.applyEvent request) store),
      ∃ id, event.data.hookCreation = some id ∧ store.hookEvent[id]?.isSome = true := by
  unfold replaysConflict at replays
  split at replays
  swap
  · cases replays
  rename_i id eventData created
  simp only [Bool.and_eq_true, Bool.not_eq_true'] at replays
  obtain ⟨⟨⟨⟨admitted, active⟩, marked⟩, unfenced⟩, conflicts⟩ := replays
  obtain ⟨holder, other, valid⟩ := (Option.any_eq_true _ _).mp conflicts
  set ctx : ApplyEventContext := { request with now }
  set txn : EventTxn := { store, eventSequence := store.eventSequence }
  set event := ctx.event W (store.eventSequence + 1) (ctx.conflictData id eventData holder)
  have build : ctx.buildEvent W txn (ctx.conflictData id eventData holder) =
      .ok (event, { txn with eventSequence := txn.eventSequence + 1 }) :=
    bind_ok.mpr ⟨event, parseWith_ok.mpr ⟨valid, rfl⟩, rfl⟩
  have applied : applyEvent W true ctx txn = .ok (.ok { event := some event },
      ({ txn with eventSequence := txn.eventSequence + 1 } : EventTxn).putEvent event) := by
    rw [applyEvent_hookCreated_of_active created active]
    have holds : ctx.tokenHolder.filter (fun holder => holder ≠ ⟨ctx.runId, id⟩) = some holder := other
    unfold ApplyEventContext.applyHookCreated
    rw [if_neg (by simp [txn, unfenced]), holds]
    exact bind_ok.mpr ⟨_, build, rfl⟩
  obtain ⟨outcome, after, commit⟩ : ∃ outcome after, WorkflowRunDO.commitOutcome W request now
      store.eventSequence { event := some event }
      (({ txn with eventSequence := txn.eventSequence + 1 } : EventTxn).putEvent event) =
        .ok (outcome, after) := ⟨_, _, rfl⟩
  have call : WorkflowRunDO.applyEvent W runId now request store = .ok (outcome, after) := by
    rw [WorkflowRunDO.applyEvent_of_admitted admitted]
    exact bind_ok.mpr ⟨_, applied, commit⟩
  have ofRun : request.runId = runId := by
    simp only [ApplyEventRequest.admitted, Bool.and_eq_true, decide_eq_true_eq] at admitted
    exact admitted.1.1.2
  obtain ⟨run, current, -, live⟩ : ∃ run, store.run = some run ∧
      run.specVersion = W.specVersionCurrent ∧ isTerminalWorkflowRunStatus run.status = false := by
    simp only [ApplyEventContext.findsActiveRun, Bool.and_eq_true, Option.any_eq_true, decide_eq_true_eq,
      Bool.not_eq_true'] at active
    exact active.2
  have built := (ApplyEventContext.buildEvent_ok build).1
  have journals : Journals W runId now store [event]
      (({ txn with eventSequence := txn.eventSequence + 1 } : EventTxn).putEvent event).commit :=
    ofRun ▸ .single built.next (.hookConflict built.recorded current live)
  have quiet := WorkflowRunDO.commitOutcome_quiet (applyEvent_answers applied) commit
  refine ⟨event, ?_, id, rfl, marked⟩
  rw [CellOp.run, call]
  rw [transaction, Transition.appended journals quiet]
  exact .head _

/-- How a `hook_created` is answered when its hook exists already: its index entries
are repaired, or it is refused. -/
inductive ReplayAnswer (W : WorldContract) (store : RunStore) (ctx : ApplyEventContext) (id : String) :
    ApplyEventOutcome → Prop
  | indexRepair {hook : Hook} (stored : store.hooks[id]? = some hook) :
      ReplayAnswer W store ctx id (.ok { hook := some hook, hookToIndex := some hook })
  | duplicate (message : String) : ReplayAnswer W store ctx id (failure .entityConflict message)
  | fenced (message : String) (fenced : ctx.hookClaimCancelled store = true) :
      ReplayAnswer W store ctx id (failure .hookClaimCancelled message)
  | expired (message : String) (expired : (store.tombstoneFrom ctx.now).isSome = true) :
      ReplayAnswer W store ctx id (failure .runExpired message)
  | unsupported (specVersion : Nat) (other : specVersion ≠ W.specVersionCurrent)
      (source : ctx.specVersion W = specVersion ∨
        ∃ run, store.run = some run ∧ run.specVersion = specVersion) :
      ReplayAnswer W store ctx id (ctx.specVersionRefusal W specVersion)

/-- A refused replay of a marked hook. -/
theorem applyEvent_replay_refused {ctx : ApplyEventContext} {txn txn' : EventTxn} {id : String}
    {eventData : HookCreatedData} {refusal : ApplyEventFailure}
    (created : ctx.data.data = .hookCreated id eventData)
    (marked : txn.store.hookEvent[id]?.isSome = true) (started : txn.store.run.isSome = true)
    (run : applyEvent W true ctx txn = .ok (.fail refusal, txn')) :
    ReplayAnswer W txn.store ctx id (.fail refusal) := by
  rw [applyEvent_hookCreated created] at run
  split at run
  · rename_i other
    exact (Prod.mk.inj (Except.ok.inj run)).1 ▸ .unsupported _ other (.inl rfl)
  split at run
  · rename_i absent
    rw [absent] at started
    cases started
  rename_i stored current
  split at run
  · rename_i other
    exact (Prod.mk.inj (Except.ok.inj run)).1 ▸ .unsupported _ other (.inr ⟨stored, current, rfl⟩)
  split at run
  · exact (Prod.mk.inj (Except.ok.inj run)).1 ▸ .duplicate _
  unfold ApplyEventContext.applyHookCreated at run
  split at run
  · rename_i fenced
    exact (Prod.mk.inj (Except.ok.inj run)).1 ▸ .fenced _ fenced
  split at run
  · unfold ApplyEventContext.applyHookConflict at run
    obtain ⟨_, -, run⟩ := bind_ok.mp run
    cases run
  · obtain ⟨answer, -⟩ := Prod.mk.inj (Except.ok.inj run)
    unfold ApplyEventContext.applyHookReplay at answer
    split at answer
    · split at answer
      · cases answer
      · exact answer ▸ .duplicate _
    · exact answer ▸ .duplicate _

/-- Every other replay of a marked hook appends nothing. -/
theorem WorkflowRunDO.applyEvent_replay {id : String} {eventData : HookCreatedData}
    {outcome : ApplyEventOutcome} (created : request.data.data = .hookCreated id eventData)
    (marked : store.hookEvent[id]?.isSome = true) (started : store.run.isSome = true)
    (call : applyEvent W runId now request store = .ok (outcome, after)) :
    request.replaysConflict W runId now store = true ∨
      appended W store after = [] ∧ ReplayAnswer W store { request with now } id outcome := by
  cases admitted : request.admitted W runId now store with
  | false =>
    obtain ⟨tombstone, expired, rfl, rfl⟩ := applyEvent_of_not_admitted admitted call
    exact .inr ⟨List.drop_length, .expired _ (by rw [expired]; rfl)⟩
  | true =>
    rw [applyEvent_of_admitted admitted] at call
    obtain ⟨⟨answer, txn⟩, applied, commit⟩ := bind_ok.mp call
    cases answer with
    | fail refusal =>
      have answer := applyEvent_replay_refused created marked started applied
      obtain rfl := applyEvent_refuses applied
      obtain ⟨rfl, rfl⟩ := Prod.mk.inj (Except.ok.inj commit)
      exact .inr ⟨List.drop_length, answer⟩
    | ok success =>
      obtain ⟨active, applied'⟩ := applyEvent_hookCreated_ok created applied
      obtain ⟨unfenced, conflict | ⟨-, rfl, hook, stored, rfl⟩⟩ :=
        ApplyEventContext.applyHookCreated_marked marked applied'
      · obtain ⟨holder, other, valid⟩ := conflict
        refine .inl ?_
        unfold ApplyEventRequest.replaysConflict
        simp only [created]
        simp [admitted, active, marked, unfenced, other, valid]
      · have quiet := commitOutcome_quiet (applyEvent_answers applied) commit
        refine .inr ⟨quiet.appended, ?_⟩
        obtain ⟨rfl, -⟩ := Prod.mk.inj (Except.ok.inj commit)
        exact .indexRepair stored

/-- Only a conflicting replay appends a decision about a marked hook. -/
theorem CellOp.replaysConflict_of_appended {event : Event} {id : String}
    (state : store.beforePayload = true) (cleans : store.CleansTerminal)
    (dense : SlotLog.Dense W.slotToEventId store.events store.eventSequence)
    (member : event ∈ appended W store (op.run W runId now store))
    (creates : event.data.hookCreation = some id) (marked : store.hookEvent[id]?.isSome = true)
    (started : store.run.isSome = true) : op.replaysConflict W runId now store = true := by
  cases op.origin state cleans dense member with
  | forced hookId token claimedBy data =>
    rw [data] at creates
    cases creates
  | request request ctx same parsed supported records =>
    obtain ⟨eventData, created⟩ := records.hookCreation creates
    subst same
    cases call : WorkflowRunDO.applyEvent W runId now request store with
    | error =>
      simp [CellOp.run, call, transaction, appended] at member
    | ok answer =>
      obtain ⟨outcome, after⟩ := answer
      rcases WorkflowRunDO.applyEvent_replay created marked started call with replays | ⟨silent, -⟩
      · exact replays
      · simp [CellOp.run, call, transaction, silent] at member

end Steps

/-- After payload deletion has begun no request is admitted. -/
theorem CellOp.replaysConflict_before {W : WorldContract} {runId : String} {now : Nat} {store : RunStore}
    {op : CellOp} (replays : op.replaysConflict W runId now store = true) : store.beforePayload = true := by
  cases before : store.beforePayload with
  | true => rfl
  | false =>
    obtain ⟨tombstone, expired⟩ := RunStore.tombstoneFrom_isSome before now
    cases op with
    | applyEvent request =>
      simp only [replaysConflict, ApplyEventRequest.replaysConflict] at replays
      split at replays
      · simp [ApplyEventRequest.admitted, expired] at replays
      · cases replays
    | _ => cases replays

theorem List.eq_singleton_of_mem {α : Type} {list : List α} {entry : α} (single : list.length ≤ 1)
    (member : entry ∈ list) : list = [entry] := by
  cases list with
  | nil => cases member
  | cons first rest =>
    cases rest with
    | nil => rw [List.mem_singleton.mp member]
    | cons => simp at single

/-- A journaled history fills the slots it counts. -/
theorem Journals.eventSequence {W : WorldContract} {runId : String} {now : Nat} {before after : RunStore}
    {events : List Event} (journals : Journals W runId now before events after) :
    after.eventSequence = before.eventSequence + events.length := by
  induction journals with
  | start => rfl
  | next _ _ journal ih =>
    rw [journal.appends.2, ih, List.length_append, List.length_singleton, Nat.add_assoc]

theorem ApplyEventContext.WroteHook.sequence {W : WorldContract} {ctx : ApplyEventContext} {txn txn' : EventTxn}
    {success : ApplyEventSuccess} (wrote : ctx.WroteHook W txn success txn') :
    txn'.eventSequence ≤ txn.eventSequence + 1 := by
  cases wrote with
  | replayed => exact Nat.le_succ _
  | conflict | created | received | disposed => exact Nat.le_refl _

section Runs
variable {W : WorldContract} {runId : String} {now : Nat} {store : RunStore}

/-- A `hook_created` journals one event at most. -/
theorem WorkflowRunDO.applyEvent_hookCreated_single {request : ApplyEventRequest} {id : String}
    {eventData : HookCreatedData} (created : request.data.data = .hookCreated id eventData) :
    (appended W store (CellOp.run W runId now (.applyEvent request) store)).length ≤ 1 := by
  cases call : applyEvent W runId now request store with
  | error => simp [CellOp.run, call, transaction, appended]
  | ok answer =>
    obtain ⟨outcome, after⟩ := answer
    simp only [CellOp.run, call, transaction]
    rcases applyEvent_ok call with ⟨-, rfl⟩ | ⟨success, txn, ofRun, -, applied, commit⟩
    · simp [appended]
    · obtain ⟨-, -, events, journals⟩ := applyEvent_journals applied
      have quiet := commitOutcome_quiet (applyEvent_answers applied) commit
      have sequence : txn.eventSequence = store.eventSequence + events.length := journals.eventSequence
      have bound : txn.eventSequence ≤ store.eventSequence + 1 := by
        cases ApplyEventContext.applyHookCreated_settled created
          (applyEvent_hookCreated_ok created applied).2 with
        | done wrote => exact wrote.sequence
      have whole : appended W store after = events := Transition.appended journals quiet
      rw [whole]
      omega

/-- What one transaction may decide about creations, given that it is no conflicting replay. -/
theorem CreationsFinal.step {history : List Event} {op : CellOp} (final : CreationsFinal history)
    (marks : HookMarks store history) (state : store.beforePayload = true) (cleans : store.CleansTerminal)
    (dense : SlotLog.Dense W.slotToEventId store.events store.eventSequence)
    (clear : op.replaysConflict W runId now store = false) :
    CreationsFinal (history ++ appended W store (op.run W runId now store)) := by
  by_cases decides : ∃ event ∈ appended W store (op.run W runId now store), event.data.hookCreation ≠ none
  · obtain ⟨event, member, creates⟩ := decides
    obtain ⟨id, creates⟩ := Option.ne_none_iff_exists'.mp creates
    have single : appended W store (op.run W runId now store) = [event] := by
      cases op.origin state cleans dense member with
      | forced hookId token claimedBy data =>
        rw [data] at creates
        cases creates
      | request request ctx same parsed supported records =>
        subst same
        obtain ⟨eventData, created⟩ := records.hookCreation creates
        exact List.eq_singleton_of_mem (WorkflowRunDO.applyEvent_hookCreated_single created) member
    rw [single]
    refine final.snoc fun other creates' occurs => ?_
    have marked := (marks.marked other).mp occurs
    have replays := CellOp.replaysConflict_of_appended state cleans dense member creates' marked
      (marks.started other marked)
    cases clear.symm.trans replays
  · refine final.append_other fun event member => ?_
    by_contra creates
    exact decides ⟨event, member, creates⟩

end Runs

/-- A created hook is decided again by conflicting replays only: in a run without them
every creation is final, and every other replay is answered without appending. -/
theorem hookCreation_final {W : WorldContract} {runId : String} {clock : Nat → Nat → Prop} {now : Nat}
    {store : RunStore} {history : List Event} (reach : CellReach W runId clock now store history) :
    (∀ op later, (∃ event ∈ appended W store (CellOp.run W runId later op store),
        ∃ id, event.data.hookCreation = some id ∧ Occurs createdHook id history) ↔
      op.replaysConflict W runId later store = true) ∧
    (CellReachWhere W runId clock (fun now store op => op.replaysConflict W runId now store = false)
      now store history → CreationsFinal history) ∧
    (∀ request later id eventData outcome after, request.data.data = .hookCreated id eventData →
      Occurs createdHook id history → request.replaysConflict W runId later store = false →
      WorkflowRunDO.applyEvent W runId later request store = .ok (outcome, after) →
      appended W store after = [] ∧ ReplayAnswer W store { request with now := later } id outcome) := by
  refine ⟨fun op later => ?_, fun clean => ?_, fun request later id eventData outcome after created
    occurs clear call => ?_⟩
  · cases before : store.beforePayload with
    | true =>
      obtain ⟨cleans, marks⟩ := ((hookMarks_invariant W runId clock).reach reach).1 before
      have dense := (reach.logState before).dense
      constructor
      · rintro ⟨event, member, id, creates, occurs⟩
        have marked := (marks.marked id).mp occurs
        exact CellOp.replaysConflict_of_appended before cleans dense member creates marked
          (marks.started id marked)
      · intro replays
        cases op with
        | applyEvent request =>
          obtain ⟨event, member, id, creates, marked⟩ := ApplyEventRequest.replaysConflict_appends replays
          exact ⟨event, member, id, creates, (marks.marked id).mpr marked⟩
        | _ => cases replays
    | false =>
      rw [(CellOp.run_remains W runId later op before).appended]
      constructor
      · rintro ⟨event, member, -⟩
        cases member
      · intro replays
        cases before.symm.trans (CellOp.replaysConflict_before replays)
  · clear reach
    induction clean with
    | start => exact .nil
    | @next earlier now store history op reach tick clear ih =>
      cases before : store.beforePayload with
      | true =>
        obtain ⟨cleans, marks⟩ := ((hookMarks_invariant W runId clock).reach reach.reach).1 before
        exact ih.step marks before cleans (reach.reach.logState before).dense clear
      | false =>
        rwa [(CellOp.run_remains W runId now op before).appended, List.append_nil]
  · cases before : store.beforePayload with
    | true =>
      obtain ⟨-, marks⟩ := ((hookMarks_invariant W runId clock).reach reach).1 before
      have marked := (marks.marked id).mp occurs
      rcases WorkflowRunDO.applyEvent_replay created marked (marks.started id marked) call with
        replays | answered
      · cases clear.symm.trans replays
      · exact answered
    | false =>
      obtain ⟨tombstone, expired⟩ := RunStore.tombstoneFrom_isSome before later
      have refused : request.admitted W runId later store = false := by
        simp [ApplyEventRequest.admitted, expired]
      obtain ⟨tombstone, expired, rfl, rfl⟩ := WorkflowRunDO.applyEvent_of_not_admitted refused call
      exact ⟨List.drop_length, .expired _ (by rw [expired]; rfl)⟩

/-- One client's attempt to create the hook, with the holder that the token shard named. -/
def CellOp.createHook (runId hookId token : String) (tokenHolder : Option HookTokenOwner) : CellOp :=
  .applyEvent
    { runId
      data := { specVersion := none, data := .hookCreated hookId ⟨token, none, none, none, none, none, none⟩ }
      tokenHolder }

def CellOp.disposeHook (runId hookId : String) : CellOp :=
  .applyEvent { runId, data := { specVersion := none, data := .hookDisposed hookId none none } }

/-- A run whose hook was created, and created again without effect. -/
def createdTwice : RunStore × List Event :=
  CellOp.runAll .unary "run" 1
    [.resilientStart "run" "deployment" "workflow" (.string "input"), .createHook "run" "hook" "token" none,
      .createHook "run" "hook" "token" none] ({}, [])

/-- Creations without conflicts are final; a replay that names another holder decides one again. -/
theorem hookCreation_final_replayed : Occurs createdHook "hook" createdTwice.2 ∧ CreationsFinal createdTwice.2 ∧
    ∃ event ∈ appended .unary createdTwice.1 (CellOp.run .unary "run" 2
      (.createHook "run" "hook" "token" (some ⟨"other", "hook"⟩)) createdTwice.1),
        ∃ id, event.data.hookCreation = some id ∧ Occurs createdHook id createdTwice.2 := by
  have clean : CellReachWhere .unary "run" (· ≤ ·)
      (fun now store op => op.replaysConflict .unary "run" now store = false) 1 createdTwice.1
        createdTwice.2 := by
    simp only [createdTwice, CellOp.runAll, List.foldl_cons, List.foldl_nil]
    refine .next (.next (.next (.start 1) (Nat.le_refl 1) ?_) (Nat.le_refl 1) ?_) (Nat.le_refl 1) ?_
    all_goals decide +kernel
  obtain ⟨decides, final, -⟩ := hookCreation_final clean.reach
  have again := (decides (.createHook "run" "hook" "token" (some ⟨"other", "hook"⟩)) 2).mpr (by decide +kernel)
  refine ⟨?_, final clean, again⟩
  unfold Occurs
  decide +kernel
/-- A token shard whose token went from a hook of one run to a hook of another. -/
def HookTokenStore.passedOn : HookTokenStore :=
  let reserved := (HookTokenDO.reserve {} "token" ⟨"run", "hook"⟩ "first" none none 1).2
  let released := HookTokenDO.releaseHook reserved false 1 "token" ⟨"run", "hook"⟩
  (HookTokenDO.reserve released "token" ⟨"other", "hook"⟩ "second" none none 1).2

/-- A run creates and disposes its hook, another run reserves the token, and a replay of
the creation journals a conflict after it. -/
theorem hookCreation_conflictingReplay :
    (HookTokenDO.reserve .passedOn "token" ⟨"run", "hook"⟩ "third" none none 1).1 =
        .done (.held ⟨"other", "hook"⟩) ∧
      ¬ ∀ W runId now store history, CellReach W runId (· ≤ ·) now store history →
        CreationsFinal history := by
  refine ⟨by decide, fun claim => ?_⟩
  have final := claim .unary "run" 1 _ _ (@CellReach.runAll .unary "run" (· ≤ ·) 1 ({}, [])
    [.resilientStart "run" "deployment" "workflow" (.string "input"), .createHook "run" "hook" "token" none,
      .disposeHook "run" "hook", .createHook "run" "hook" "token" (some ⟨"other", "hook"⟩)]
    (Nat.le_refl 1) (.start 1))
  let created : EventData := .runCreated ⟨"deployment", "workflow", .string "input", none, none, none, none⟩
  refine final
    [⟨"0", "run", 1, none, none, 5, created⟩, ⟨"00", "run", 1, none, none, 5, .runStarted⟩,
      ⟨"000", "run", 1, none, none, 5, .hookCreated "hook" ⟨"token", none, none, none, none, none, none⟩⟩,
      ⟨"0000", "run", 1, none, none, 5, .hookDisposed "hook" none none⟩]
    ⟨"00000", "run", 1, none, none, 5, .hookConflict "hook" "token" "other" none⟩ [] (by decide) "hook" rfl ?_
  exact ⟨⟨"000", "run", 1, none, none, 5,
    .hookCreated "hook" ⟨"token", none, none, none, none, none, none⟩⟩, by decide, rfl⟩

end CelldWorld
