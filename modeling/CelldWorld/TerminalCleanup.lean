import CelldWorld.TwinRuns
import CelldWorld.HookReplay

namespace CelldWorld

/-- What the client of an event learns: accepted, or the code of the refusal. -/
inductive EventAnswer
  | accepted
  | refused (code : ApplyEventErrorCode)
  | thrown (thrown : Thrown)
  deriving DecidableEq, Repr

def EventAnswer.of : Except Thrown (ApplyEventOutcome × RunStore) → EventAnswer
  | .ok (.ok _, _) => .accepted
  | .ok (.fail refusal, _) => .refused refusal.code
  | .error error => .thrown error

/-- The two executions so far: the same store while the run is active, and without its
hooks and waits in the inline one once it has ended. -/
def Twins (deferred inline : RunStore) : Prop :=
  deferred.isTerminal = false ∧ inline = deferred ∨ deferred.isTerminal = true ∧ Concealed deferred inline

variable {W : WorldContract} {runId : String} {now : Nat}

theorem Twins.log {deferred inline : RunStore} (twins : Twins deferred inline) :
    inline.log W = deferred.log W := by
  rcases twins with ⟨-, rfl⟩ | ⟨-, derived, rfl, -⟩
  · rfl
  · rfl

theorem Alike.twins {store inline : RunStore} {result result' : Except Thrown (ApplyEventOutcome × RunStore)}
    (alike : Alike result result') (before : Twins store inline)
    (ends : ∀ outcome after, result = .ok (outcome, after) → after.isTerminal = true) :
    EventAnswer.of result = EventAnswer.of result' ∧
      Twins (transaction store result) (transaction inline result') := by
  cases alike with
  | thrown => exact ⟨rfl, before⟩
  | accepted concealed => exact ⟨rfl, .inr ⟨ends _ _ rfl, concealed⟩⟩
  | refused concealed => exact ⟨rfl, .inr ⟨ends _ _ rfl, concealed⟩⟩

namespace ApplyEventRequest

/-- The request disposes a hook or completes a wait that is still stored on an ended run. -/
def findsUnswept (W : WorldContract) (runId : String) (now : Nat) (store : RunStore)
    (request : ApplyEventRequest) : Bool :=
  let ctx : ApplyEventContext := { request with now }
  request.admitted W runId now store && ctx.specVersion W = W.specVersionCurrent &&
    (store.run.any fun run =>
      run.specVersion = W.specVersionCurrent && isTerminalWorkflowRunStatus run.status) &&
    !W.isChildEntityCreationEvent request.data.data &&
    match request.data.data with
    | .hookDisposed id _ _ => store.hooks[id]?.isSome
    | .waitCompleted id _ => store.waits[id]?.isSome
    | _ => false

end ApplyEventRequest

namespace WorkflowRunDO
variable {store inline after : RunStore} {request : ApplyEventRequest} {defers : Bool}

/-- Before the event core both executions look at the same keys. -/
theorem applyEventDeferring_of_not_admitted (refused : request.admitted W runId now store = false) :
    (∃ error, ∀ defers derived,
      applyEventDeferring W defers runId now request (store.withDerived derived) = .error error) ∨
    ∃ refusal, ∀ defers derived, applyEventDeferring W defers runId now request (store.withDerived derived) =
      .ok (.fail refusal, store.withDerived derived) := by
  have expiry (derived : RunStore) : (store.withDerived derived).tombstoneFrom now = store.tombstoneFrom now :=
    rfl
  unfold applyEventDeferring
  simp only [expiry]
  cases parse : parseApplyEventRequest W request with
  | error error => exact .inl ⟨error, fun _ _ => rfl⟩
  | ok parsed =>
    obtain rfl := parseApplyEventRequest_ok parse
    simp only [bind, Except.bind]
    split
    · exact .inl ⟨_, fun _ _ => rfl⟩
    rename_i ofRun
    cases check : checkCleanup parsed.cleanup with
    | error error => exact .inl ⟨error, fun _ _ => rfl⟩
    | ok =>
      cases expired : store.tombstoneFrom now with
      | some tombstone => exact .inr ⟨_, fun _ _ => rfl⟩
      | none =>
        have ofRun : parsed.runId = runId := by simpa using ofRun
        simp [ApplyEventRequest.admitted, parse, ofRun, check, expired, Except.isOk, Except.toBool] at refused

/-- A success of the event core on the deferred store, and what committing it leaves. -/
theorem commitOutcome_keeps {success : ApplyEventSuccess} {txn : EventTxn} {outcome : ApplyEventOutcome}
    (deferring : store.Deferring W)
    (applied : CelldWorld.applyEvent W true { request with now } ⟨store, store.eventSequence⟩ =
      .ok (.ok success, txn))
    (commit : commitOutcome W request now store.eventSequence success txn = .ok (outcome, after)) :
    after.Deferring W ∧ after.isTerminal = txn.commit.isTerminal := by
  have sequence := (applyEvent_journals applied).1
  simp only at sequence
  rw [← sequence] at commit
  have forced := commitOutcome_hookForced commit
  have quiet := commitOutcome_quiet (applyEvent_answers applied) commit
  exact ⟨quiet.deferring (EventTxn.accepts deferring applied).deferring forced,
    RunStore.isTerminal_congr quiet.run⟩

/-- The deferred execution keeps its invariant over one request. -/
theorem applyEvent_keeps_deferring (deferring : store.Deferring W) :
    (transaction store (applyEvent W runId now request store)).Deferring W := by
  cases call : applyEvent W runId now request store with
  | error => exact deferring
  | ok answer =>
    simp only [transaction]
    rcases applyEvent_ok call with ⟨-, same⟩ | ⟨success, txn, -, -, applied, commit⟩
    · rw [same]
      exact deferring
    · rw [(applyEvent_journals applied).1] at commit
      exact (commitOutcome_keeps deferring applied commit).1

/-- While the run is active the two executions are one, up to the request that ends it. -/
theorem applyEvent_twins_active (deferring : store.Deferring W) (active : store.isTerminal = false) :
    EventAnswer.of (applyEventDeferring W true runId now request store) =
        EventAnswer.of (applyEventDeferring W false runId now request store) ∧
      Twins (transaction store (applyEventDeferring W true runId now request store))
        (transaction store (applyEventDeferring W false runId now request store)) := by
  have before : Twins store store := .inl ⟨active, rfl⟩
  cases admitted : request.admitted W runId now store with
  | false =>
    have both := @applyEventDeferring_of_not_admitted W runId now store request admitted
    rcases both with ⟨error, thrown⟩ | ⟨refusal, refused⟩
    · have thrown defers := thrown defers store
      simp only [show store.withDerived store = store from rfl] at thrown
      rw [thrown, thrown]
      exact ⟨rfl, before⟩
    · have refused defers := refused defers store
      simp only [show store.withDerived store = store from rfl] at refused
      rw [refused, refused]
      exact ⟨rfl, before⟩
  | true =>
    rw [applyEventDeferring_of_admitted admitted, applyEventDeferring_of_admitted admitted,
      applyEvent_inline active]
    set ctx : ApplyEventContext := { request with now } with context
    cases applied : CelldWorld.applyEvent W true ctx ⟨store, store.eventSequence⟩ with
    | error => split <;> exact ⟨rfl, before⟩
    | ok result =>
      obtain ⟨answer, txn⟩ := result
      cases answer with
      | fail refusal =>
        obtain rfl := applyEvent_refuses applied
        split <;> exact ⟨rfl, before⟩
      | ok success =>
        have accepts := EventTxn.accepts deferring applied
        split
        · rename_i finishes
          obtain ⟨ended, -, stored, terminal⟩ := applyEvent_finishes finishes applied
          obtain ⟨derived, swept, hooks, waits⟩ := @EventTxn.releaseAll_derived txn accepts.deferring.keyed
          simp only [Except.map, EventTxn.sweep, swept, bind, Except.bind]
          have alike : Alike (commitOutcome W request now store.eventSequence success txn)
              (commitOutcome W request now store.eventSequence
                { success with releasedHooks := (txn.releaseAllHooks false).1 } (txn.withDerived derived)) :=
            commitOutcome_alike rfl rfl hooks waits
          refine alike.twins before fun outcome after commit => ?_
          rw [(commitOutcome_keeps deferring applied commit).2]
          simpa [RunStore.isTerminal, EventTxn.commit, stored] using terminal
        · rename_i unfinished
          simp only [bind, Except.bind]
          refine ⟨trivial, .inl ⟨?_, rfl⟩⟩
          cases commit : commitOutcome W request now store.eventSequence success txn with
          | error => exact active
          | ok answer =>
            simp only [transaction]
            rw [(commitOutcome_keeps deferring applied commit).2, accepts.goesOn (by simpa using unfinished)]
            exact active

/-- Once the run has ended, only a disposed hook or a completed wait could tell the two
executions apart. -/
theorem applyEvent_twins_ended (deferring : store.Deferring W) (ended : store.isTerminal = true)
    (concealed : Concealed store inline) (hidden : request.findsUnswept W runId now store = false) :
    EventAnswer.of (applyEventDeferring W true runId now request store) =
        EventAnswer.of (applyEventDeferring W false runId now request inline) ∧
      Twins (transaction store (applyEventDeferring W true runId now request store))
        (transaction inline (applyEventDeferring W false runId now request inline)) := by
  have before : Twins store inline := .inr ⟨ended, concealed⟩
  obtain ⟨derived, rfl, hooks, waits⟩ := concealed
  cases admitted : request.admitted W runId now store with
  | false =>
    have both := @applyEventDeferring_of_not_admitted W runId now store request admitted
    rcases both with ⟨error, thrown⟩ | ⟨refusal, refused⟩
    · have thrown' := thrown true store
      rw [show store.withDerived store = store from rfl] at thrown'
      rw [thrown', thrown]
      exact ⟨rfl, before⟩
    · have refused' := refused true store
      rw [show store.withDerived store = store from rfl] at refused'
      rw [refused', refused]
      exact ⟨rfl, before⟩
  | true =>
    have admitted' : request.admitted W runId now (store.withDerived derived) = true := admitted
    rw [applyEventDeferring_of_admitted admitted, applyEventDeferring_of_admitted admitted']
    set ctx : ApplyEventContext := { request with now } with context
    obtain ⟨run, current, closed⟩ : ∃ run, store.run = some run ∧
      isTerminalWorkflowRunStatus run.status = true := by
      cases current : store.run with
      | none => simp [RunStore.isTerminal, current] at ended
      | some run => exact ⟨run, rfl, by simpa [RunStore.isTerminal, current] using ended⟩
    have shared : CelldWorld.applyEvent W false ctx ⟨store.withDerived derived, store.eventSequence⟩ =
        (CelldWorld.applyEvent W true ctx ⟨store, store.eventSequence⟩).map (EventTxn.rederive derived) := by
      refine @applyEvent_ended W ctx ⟨store, store.eventSequence⟩ derived run false current closed hooks waits
        (fun id _ _ => deferring.unforced id) fun supported version child => ?_
      have child : W.isChildEntityCreationEvent request.data.data = false := child
      simp only [ApplyEventRequest.findsUnswept, ← context, admitted, supported, current, version, closed, child,
        Option.any_some, decide_true, Bool.and_true, Bool.true_and, Bool.not_false] at hidden
      refine ⟨fun id token claimedBy (same : request.data.data = _) => ?_,
        fun id resumeAt (same : request.data.data = _) => ?_⟩
      · rw [same] at hidden
        exact Option.isNone_iff_eq_none.mp (Option.isSome_eq_false_iff.mp hidden)
      · rw [same] at hidden
        exact Option.isNone_iff_eq_none.mp (Option.isSome_eq_false_iff.mp hidden)
    have sequence : (store.withDerived derived).eventSequence = store.eventSequence := rfl
    rw [sequence, shared]
    cases applied : CelldWorld.applyEvent W true ctx ⟨store, store.eventSequence⟩ with
    | error => exact ⟨rfl, before⟩
    | ok result =>
      obtain ⟨answer, txn⟩ := result
      cases answer with
      | fail refusal =>
        obtain rfl := applyEvent_refuses applied
        exact ⟨rfl, before⟩
      | ok success =>
        have accepts := EventTxn.accepts deferring applied
        simp only [Except.map, EventTxn.rederive, bind, Except.bind]
        refine (commitOutcome_alike rfl rfl hooks waits).twins before fun outcome after commit => ?_
        rw [(commitOutcome_keeps deferring applied commit).2]
        exact accepts.ended ended

end WorkflowRunDO

/-- A disposal or a completion on an ended run reaches the guards of its entity. -/
theorem applyEvent_late {ctx : ApplyEventContext} {txn : EventTxn} {run : WorkflowRun} {defers : Bool}
    (supported : ctx.specVersion W = W.specVersionCurrent) (current : txn.store.run = some run)
    (version : run.specVersion = W.specVersionCurrent) (ended : isTerminalWorkflowRunStatus run.status = true)
    (child : W.isChildEntityCreationEvent ctx.data.data = false)
    (late : (∃ id token claimedBy, ctx.data.data = .hookDisposed id token claimedBy) ∨
      ∃ id resumeAt, ctx.data.data = .waitCompleted id resumeAt) :
    applyEvent W defers ctx txn = ctx.applyGuarded W defers (some run) none txn := by
  have skip : ctx.skipRunValidation = false := by
    rcases late with ⟨id, token, claimedBy, request⟩ | ⟨id, resumeAt, request⟩ <;>
      simp [ApplyEventContext.skipRunValidation, request]
  have boot : ctx.bootstrapRun W (some run) txn = .ok (some run, none, txn) := by
    unfold ApplyEventContext.bootstrapRun
    cases ctx.bootstrapData <;> rfl
  have passes : ctx.terminalRunGuard W run txn = .ok (none, txn) := by
    unfold ApplyEventContext.terminalRunGuard
    rw [if_neg (by simp [ended])]
    rcases late with ⟨id, token, claimedBy, request⟩ | ⟨id, resumeAt, request⟩ <;>
      (rw [request] at child; simp only [request, child, Bool.false_eq_true, if_false])
  unfold applyEvent
  simp only [supported, skip, current, boot, version, passes, ne_eq, not_true_eq_false, if_false, bind,
    Except.bind, Bool.false_eq_true]

namespace ApplyEventContext
variable {ctx : ApplyEventContext} {txn : EventTxn} {run : WorkflowRun} {defers : Bool}

theorem applyGuarded_hookDisposed {id : String} {token : Option String} {claimedBy : Option HookTokenOwner}
    (request : ctx.data.data = .hookDisposed id token claimedBy) :
    ctx.applyGuarded W defers (some run) none txn =
      match hookGuard txn.store (some run) (.hookDisposed id token claimedBy) with
      | some outcome => .ok (outcome, txn)
      | none => ctx.applyHookDisposed W id txn := by
  have noStep : stepGuard W txn.store (some run) ctx.data.data = .ok none := by rw [request]; rfl
  have noResume : hookResumeGuard txn.store ctx = none := by
    unfold hookResumeGuard
    rw [request]
  have writes : ctx.applyWrites W defers (some run) none none txn = ctx.applyHookDisposed W id txn := by
    unfold applyWrites
    rw [request]
  unfold applyGuarded
  rw [noStep, noResume, request]
  cases hookGuard txn.store (some run) (.hookDisposed id token claimedBy) with
  | some outcome => rfl
  | none => exact (if_neg (by simp)).trans writes

theorem applyGuarded_waitCompleted {id : String} {resumeAt : Option Nat}
    (request : ctx.data.data = .waitCompleted id resumeAt) :
    ctx.applyGuarded W defers (some run) none txn = ctx.applyWaitCompleted W id resumeAt txn := by
  unfold applyGuarded
  simp only [request, stepGuard, CreateEvent.stepTarget, hookResumeGuard, hookGuard, applyWrites, reduceCtorEq,
    and_false, if_false]

end ApplyEventContext

namespace WorkflowRunDO
variable {store inline : RunStore} {request : ApplyEventRequest}

/-- The two executions no longer agree: another answer, or another log. -/
def Differ (W : WorldContract) (runId : String) (now : Nat) (request : ApplyEventRequest)
    (store inline : RunStore) : Prop :=
  ¬ (EventAnswer.of (applyEventDeferring W true runId now request store) =
        EventAnswer.of (applyEventDeferring W false runId now request inline) ∧
      (transaction inline (applyEventDeferring W false runId now request inline)).log W =
        (transaction store (applyEventDeferring W true runId now request store)).log W)

section Late
variable {run : WorkflowRun}

/-- Around a success that does not write the run, committing cannot fail. -/
theorem commitOutcome_quiet_of_none {success : ApplyEventSuccess} {txn : EventTxn} (rests : success.run = none) :
    ∃ finished after, commitOutcome W request now txn.store.eventSequence success txn =
        .ok (.ok finished, after) ∧ Quiet txn.commit after := by
  have unscheduled (store : RunStore) : scheduleTerminalRetention W
      ((request.cleanup.map (·.retentionMs)).getD 0) success store = .ok (success, store) := by
    unfold scheduleTerminalRetention
    rw [rests]
  have started (store : RunStore) : startTerminalCleanup now success store = store := by
    unfold startTerminalCleanup
    rw [rests]
  obtain ⟨finished, page, -⟩ := @finalizeEventPage_event W
    (putHookReferences success (recordClaimScope success txn.commit))
    (setPublicationDeadline now success) request.params
  have commit : commitOutcome W request now txn.store.eventSequence success txn =
      .ok (.ok finished, putHookReferences success (recordClaimScope success txn.commit)) := by
    unfold commitOutcome
    simp only [unscheduled, bind, Except.bind, started, EventTxn.persist_eq, page]
  refine ⟨finished, _, commit, commitOutcome_quiet (fun run carried => ?_) commit⟩
  rw [rests] at carried
  cases carried

/-- A disposed hook that is still stored is journaled, or its event is refused by the schema. -/
theorem disposed_journaled {id : String} {token : Option String} {claimedBy : Option HookTokenOwner} {hook : Hook}
    (admitted : request.admitted W runId now store = true)
    (core : CelldWorld.applyEvent W true { request with now } ⟨store, store.eventSequence⟩ =
      ApplyEventContext.applyHookDisposed W { request with now } id ⟨store, store.eventSequence⟩)
    (disposes : request.data.data = .hookDisposed id token claimedBy) (current : store.run = some run)
    (stored : store.hooks[id]? = some hook) :
    (∃ error, applyEventDeferring W true runId now request store = .error error) ∨
      ∃ success after event, applyEventDeferring W true runId now request store = .ok (.ok success, after) ∧
        after.log W = store.log W ++ [event] := by
  set ctx : ApplyEventContext := { request with now } with context
  have ofRun : request.runId = runId := by
    simp only [ApplyEventRequest.admitted, Bool.and_eq_true, decide_eq_true_eq] at admitted
    exact admitted.1.1.2
  rw [applyEventDeferring_of_admitted admitted, ← context, core]
  unfold ApplyEventContext.applyHookDisposed
  simp only [stored]
  cases build : ctx.buildEvent W (EventTxn.releaseHook ⟨store, store.eventSequence⟩ id hook)
      ctx.data.data.record with
  | error error => exact .inl ⟨error, rfl⟩
  | ok result =>
    obtain ⟨event, middle⟩ := result
    obtain ⟨built, rfl⟩ := ApplyEventContext.buildEvent_ok build
    have journaled : Journal W store event ((store.releaseHook id hook).append event) :=
      .hookDisposed (built.recorded.trans (congrArg CreateEvent.record disposes)) current stored
    obtain ⟨finished, after, committed, quiet⟩ := @commitOutcome_quiet_of_none W now request
      { event := some event, releasedHooks := [⟨hook.hookId, hook.token⟩] }
      (({ EventTxn.releaseHook ⟨store, store.eventSequence⟩ id hook with
        eventSequence := store.eventSequence + 1 } : EventTxn).putEvent event) rfl
    refine .inr ⟨finished, after, event, committed, ?_⟩
    have stamped : NextEvent W runId now store event :=
      ⟨built.next.eventId, built.next.ofRun.trans ofRun, built.next.createdAt⟩
    rw [quiet.log]
    exact journaled.log stamped

/-- A completed wait that is still stored is not answered as a missing one. -/
theorem completed_found {id : String} {resumeAt : Option Nat} {wait : Wait}
    (admitted : request.admitted W runId now store = true)
    (core : CelldWorld.applyEvent W true { request with now } ⟨store, store.eventSequence⟩ =
      ApplyEventContext.applyWaitCompleted W { request with now } id resumeAt ⟨store, store.eventSequence⟩)
    (stored : store.waits[id]? = some wait) :
    EventAnswer.of (applyEventDeferring W true runId now request store) ≠ .refused .waitNotFound := by
  rw [applyEventDeferring_of_admitted admitted, core]
  unfold ApplyEventContext.applyWaitCompleted
  simp only [stored]
  split
  · simp [bind, Except.bind, failure, EventAnswer.of]
  · unfold ApplyEventContext.writeWait
    cases parseWith "WaitSchema" W.waitSchema _ with
    | error => simp [bind, Except.bind, EventAnswer.of]
    | ok parsed =>
      cases build : ApplyEventContext.buildEvent W { request with now } ⟨store, store.eventSequence⟩ _ with
      | error => simp [bind, Except.bind, EventAnswer.of]
      | ok result =>
        obtain ⟨event, middle⟩ := result
        obtain ⟨built, rfl⟩ := ApplyEventContext.buildEvent_ok build
        obtain ⟨finished, after, committed, -⟩ := @commitOutcome_quiet_of_none W now request
          { event := some event, wait := some parsed }
          ((EventTxn.putWait ⟨store, store.eventSequence + 1⟩ id parsed).putEvent event) rfl
        exact (congrArg EventAnswer.of committed).trans_ne nofun

/-- Once a stored hook or wait of the ended run is addressed, the executions differ. -/
theorem findsUnswept_differ (concealed : Concealed store inline)
    (finds : request.findsUnswept W runId now store = true) : Differ W runId now request store inline := by
  obtain ⟨derived, rfl, hooks, waits⟩ := concealed
  set ctx : ApplyEventContext := { request with now } with context
  simp only [ApplyEventRequest.findsUnswept, ← context, Bool.and_eq_true, decide_eq_true_eq, Option.any_eq_true,
    Bool.not_eq_true'] at finds
  obtain ⟨⟨⟨⟨admitted, supported⟩, run, current, version, closed⟩, child⟩, found⟩ := finds
  have admitted' : request.admitted W runId now (store.withDerived derived) = true := admitted
  have core {defers : Bool} {txn : EventTxn} (same : txn.store.run = store.run)
      (late : (∃ id token claimedBy, request.data.data = .hookDisposed id token claimedBy) ∨
        ∃ id resumeAt, request.data.data = .waitCompleted id resumeAt) :
      CelldWorld.applyEvent W defers ctx txn = ctx.applyGuarded W defers (some run) none txn :=
    applyEvent_late supported (same.trans current) version closed child late
  rintro ⟨answers, logs⟩
  split at found
  · rename_i id token claimedBy disposes
    obtain ⟨hook, stored⟩ := Option.isSome_iff_exists.mp found
    have gone : (store.withDerived derived).hooks[id]? = none := by
      change derived.hooks[id]? = none
      rw [hooks]
      rfl
    have deferred : CelldWorld.applyEvent W true ctx ⟨store, store.eventSequence⟩ =
        ctx.applyHookDisposed W id ⟨store, store.eventSequence⟩ := by
      rw [core rfl (.inl ⟨id, token, claimedBy, disposes⟩), ApplyEventContext.applyGuarded_hookDisposed disposes]
      simp [hookGuard, stored]
    have unlogged : (transaction (store.withDerived derived)
          (applyEventDeferring W false runId now request (store.withDerived derived))).log W = store.log W ∧
        ∀ error, EventAnswer.of (applyEventDeferring W false runId now request (store.withDerived derived)) ≠
          .thrown error := by
      rw [applyEventDeferring_of_admitted admitted', ← context, core rfl (.inl ⟨id, token, claimedBy, disposes⟩),
        ApplyEventContext.applyGuarded_hookDisposed disposes]
      simp only [hookGuard, gone]
      split
      · rename_i outcome answered
        split at answered
        · cases answered
        split at answered
        · rename_i released _
          obtain rfl := Option.some.inj answered
          obtain ⟨finished, after, committed, quiet⟩ := @commitOutcome_quiet_of_none W now request
            { releasedHooks := [released] } ⟨store.withDerived derived, store.eventSequence⟩ rfl
          refine ⟨(congrArg (fun result => (transaction _ result).log W) committed).trans quiet.log,
            fun error => ?_⟩
          exact (congrArg EventAnswer.of committed).trans_ne (by intro same; cases same)
        · obtain rfl := Option.some.inj answered
          exact ⟨rfl, fun error same => by cases same⟩
      · simp only [ApplyEventContext.applyHookDisposed, gone]
        exact ⟨rfl, fun error same => by cases same⟩
    rcases disposed_journaled admitted deferred disposes current stored with
      ⟨error, thrown⟩ | ⟨success, after, event, accepted, log⟩
    · rw [thrown] at answers
      exact unlogged.2 error answers.symm
    · rw [accepted, unlogged.1] at logs
      simp [transaction, log] at logs
  · rename_i id resumeAt completes
    obtain ⟨wait, stored⟩ := Option.isSome_iff_exists.mp found
    have deferred : CelldWorld.applyEvent W true ctx ⟨store, store.eventSequence⟩ =
        ctx.applyWaitCompleted W id resumeAt ⟨store, store.eventSequence⟩ := by
      rw [core rfl (.inr ⟨id, resumeAt, completes⟩), ApplyEventContext.applyGuarded_waitCompleted completes]
    have missing : EventAnswer.of (applyEventDeferring W false runId now request (store.withDerived derived)) =
        .refused .waitNotFound := by
      have gone : (store.withDerived derived).waits[id]? = none := by
        change derived.waits[id]? = none
        rw [waits]
        rfl
      rw [applyEventDeferring_of_admitted admitted', ← context, core rfl (.inr ⟨id, resumeAt, completes⟩),
        ApplyEventContext.applyGuarded_waitCompleted completes]
      simp only [ApplyEventContext.applyWaitCompleted, gone]
      rfl
    exact completed_found admitted deferred stored (answers.trans missing)
  · cases found

end Late

end WorkflowRunDO

/-- One step of the two executions: a request to both, or an alarm of the deferred one. -/
inductive CleanupStep
  | applyEvent (request : ApplyEventRequest)
  | terminalPage (expected : TerminalCleanupRecord) (page : TerminalCleanupPage)
  | terminalFailure (error : String) (expected : TerminalCleanupRecord)

namespace CleanupStep

/-- The step in the execution that defers its terminal cleanup. -/
def run (W : WorldContract) (runId : String) (now : Nat) : CleanupStep → RunStore → RunStore
  | .applyEvent request, store => (CellOp.applyEvent request).run W runId now store
  | .terminalPage expected page, store => (CellOp.executeTerminalCleanup expected page).run W runId now store
  | .terminalFailure error expected, store =>
    (CellOp.recordTerminalCleanupFailure error expected).run W runId now store

/-- The step in the execution that cleans up in the transaction of the terminal event. -/
def runInline (W : WorldContract) (runId : String) (now : Nat) : CleanupStep → RunStore → RunStore
  | .applyEvent request, store =>
      transaction store (WorkflowRunDO.applyEventDeferring W false runId now request store)
  | .terminalPage .., store | .terminalFailure .., store => store

/-- A request gets the same answer in both executions. -/
def Answers (W : WorldContract) (runId : String) (now : Nat) (store inline : RunStore) : CleanupStep → Prop
  | .applyEvent request =>
      EventAnswer.of (WorkflowRunDO.applyEvent W runId now request store) =
        EventAnswer.of (WorkflowRunDO.applyEventDeferring W false runId now request inline)
  | .terminalPage .. | .terminalFailure .. => True

/-- The request of the step, if it is one, finds nothing that cleanup has yet to sweep. -/
def hidden (W : WorldContract) (runId : String) (now : Nat) (store : RunStore) : CleanupStep → Bool
  | .applyEvent request => !request.findsUnswept W runId now store
  | .terminalPage .. | .terminalFailure .. => true

/-- Every request of the sequence gets the same answer in both executions, and leaves
the two event logs equal. -/
def Agree (W : WorldContract) (runId : String) : List (Nat × CleanupStep) → RunStore → RunStore → Prop
  | [], store, inline => inline.log W = store.log W
  | (now, step) :: steps, store, inline =>
      inline.log W = store.log W ∧ step.Answers W runId now store inline ∧
        Agree W runId steps (step.run W runId now store) (step.runInline W runId now inline)

/-- No request of the sequence finds anything that cleanup has yet to sweep. -/
def allHidden (W : WorldContract) (runId : String) : List (Nat × CleanupStep) → RunStore → Bool
  | [], _ => true
  | (now, step) :: steps, store =>
      step.hidden W runId now store && allHidden W runId steps (step.run W runId now store)

variable {store inline : RunStore} {step : CleanupStep}

theorem run_deferring (deferring : store.Deferring W) : (step.run W runId now store).Deferring W := by
  cases step with
  | applyEvent request => exact WorkflowRunDO.applyEvent_keeps_deferring deferring
  | terminalPage expected page =>
    have page := @WorkflowRunDO.executeTerminalCleanup_step W runId now store expected page
    obtain ⟨⟨swept, same⟩, -⟩ := page.derived rfl
    exact (page.quiet rfl (.inl rfl) deferring.cleans).deferring deferring
      ((congrArg RunStore.hookForced same).trans rfl)
  | terminalFailure error expected =>
    have failure := @WorkflowRunDO.recordTerminalCleanupFailure_step W runId now store error expected
    obtain ⟨⟨swept, same⟩, -⟩ := failure.derived rfl
    exact (failure.quiet rfl (.inl rfl) deferring.cleans).deferring deferring
      ((congrArg RunStore.hookForced same).trans rfl)

/-- An alarm moves only the deferred execution, and only once the run has ended. -/
theorem twins_alarm {after : RunStore} (deferring : store.Deferring W) (twins : Twins store inline)
    (idle : store.terminalCleanup = none → after = store)
    (derived : ∃ swept, after = store.withDerived swept) : Twins after inline := by
  rcases twins with ⟨active, rfl⟩ | ⟨ended, derived', rfl, hooks, waits⟩
  · have unstarted : inline.terminalCleanup = none := by
      cases started : inline.terminalCleanup with
      | none => rfl
      | some cleanup =>
        have terminal := deferring.cleans (by rw [started]; rfl)
        cases active.symm.trans terminal
    exact .inl ⟨idle unstarted ▸ active, (idle unstarted).symm⟩
  · obtain ⟨swept, rfl⟩ := derived
    exact .inr ⟨ended, derived', rfl, hooks, waits⟩

/-- A step whose request finds nothing unswept keeps the executions together. -/
theorem twins_step (deferring : store.Deferring W) (twins : Twins store inline)
    (hides : step.hidden W runId now store = true) :
    step.Answers W runId now store inline ∧
      Twins (step.run W runId now store) (step.runInline W runId now inline) := by
  cases step with
  | applyEvent request =>
    have hides : request.findsUnswept W runId now store = false := by simpa [hidden] using hides
    rcases twins with ⟨active, rfl⟩ | ⟨ended, concealed⟩
    · exact WorkflowRunDO.applyEvent_twins_active deferring active
    · exact WorkflowRunDO.applyEvent_twins_ended deferring ended concealed hides
  | terminalPage expected page =>
    obtain ⟨derived, idle⟩ :=
      (@WorkflowRunDO.executeTerminalCleanup_step W runId now store expected page).derived rfl
    exact ⟨trivial, twins_alarm deferring twins idle derived⟩
  | terminalFailure error expected =>
    obtain ⟨derived, idle⟩ :=
      (@WorkflowRunDO.recordTerminalCleanupFailure_step W runId now store error expected).derived rfl
    exact ⟨trivial, twins_alarm deferring twins idle derived⟩

theorem Agree.logs {steps : List (Nat × CleanupStep)} (agree : Agree W runId steps store inline) :
    inline.log W = store.log W := by
  cases steps with
  | nil => exact agree
  | cons => exact agree.1

theorem agree_iff (steps : List (Nat × CleanupStep)) (deferring : store.Deferring W)
    (twins : Twins store inline) :
    Agree W runId steps store inline ↔ allHidden W runId steps store = true := by
  induction steps generalizing store inline with
  | nil => exact iff_of_true twins.log rfl
  | cons head steps ih =>
    obtain ⟨now, step⟩ := head
    simp only [Agree, allHidden, Bool.and_eq_true]
    cases hides : step.hidden W runId now store with
    | true =>
      obtain ⟨answers, later⟩ := twins_step deferring twins hides
      have rest := ih (run_deferring deferring) later
      constructor
      · exact fun agree => ⟨rfl, rest.mp agree.2.2⟩
      · exact fun hidden => ⟨twins.log, answers, rest.mpr hidden.2⟩
    | false =>
      refine iff_of_false (fun agree => ?_) nofun
      cases step with
      | applyEvent request =>
        have finds : request.findsUnswept W runId now store = true := by simpa [hidden] using hides
        rcases twins with ⟨active, -⟩ | ⟨-, concealed⟩
        · simp only [ApplyEventRequest.findsUnswept, Bool.and_eq_true, Option.any_eq_true] at finds
          obtain ⟨⟨⟨-, run, current, -, closed⟩, -⟩, -⟩ := finds
          simp [RunStore.isTerminal, current, closed] at active
        · exact WorkflowRunDO.findsUnswept_differ concealed finds ⟨agree.2.1, agree.2.2.logs⟩
      | terminalPage => cases hides
      | terminalFailure => cases hides

end CleanupStep

/-- The two executions of a request sequence agree exactly if none of its requests
disposes a hook or completes a wait that deferred cleanup has left on the ended run. -/
theorem terminalCleanup_unobservable (W : WorldContract) (runId : String) (steps : List (Nat × CleanupStep)) :
    CleanupStep.Agree W runId steps {} {} ↔ CleanupStep.allHidden W runId steps {} = true :=
  CleanupStep.agree_iff steps RunStore.deferring_empty (.inl ⟨rfl, rfl⟩)

/-- A run that creates a hook, completes, and disposes the hook before any alarm: the
deferred execution journals the disposal, the inline one answers `HOOK_NOT_FOUND`. -/
def CleanupStep.lateDisposal : List (Nat × CleanupStep) :=
  let send (data : CreateEvent) : CleanupStep :=
    .applyEvent { runId := "run", data := { specVersion := none, data } }
  [(1, send (.runStarted (some
      { deploymentId := some "deployment", workflowName := some "workflow", input := some (.string "input")
        executionContext := none, attributes := none, allowReservedAttributes := none
        encryptionPublicKey := none }))),
    (2, send (.hookCreated "hook" ⟨"token", none, none, none, none, none, none⟩)),
    (3, send (.runCompleted none)),
    (4, send (.hookDisposed "hook" none none))]

theorem terminalCleanup_observed :
    ¬ ∀ W runId steps, CleanupStep.Agree W runId steps {} {} := by
  intro claim
  have agree := claim .unary "run" CleanupStep.lateDisposal
  rw [CleanupStep.agree_iff _ RunStore.deferring_empty (.inl ⟨rfl, rfl⟩)] at agree
  exact absurd agree (by decide)

end CelldWorld
