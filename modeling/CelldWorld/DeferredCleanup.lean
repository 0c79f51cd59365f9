import CelldWorld.HookResume

namespace CelldWorld

/-- The keys that terminal cleanup deletes and the keys that drive it, taken from another store. -/
def RunStore.withDerived (store derived : RunStore) : RunStore :=
  { store with
    hooks := derived.hooks
    hookCreated := derived.hookCreated
    waits := derived.waits
    hookMarkers := derived.hookMarkers
    terminalCleanup := derived.terminalCleanup
    alarm := derived.alarm }

def EventTxn.withDerived (txn : EventTxn) (derived : RunStore) : EventTxn :=
  { txn with store := txn.store.withDerived derived }

/-- The same outcome over a store with other derived keys. -/
def EventTxn.rederive (derived : RunStore) (result : ApplyEventOutcome × EventTxn) :
    ApplyEventOutcome × EventTxn :=
  (result.1, result.2.withDerived derived)

/-! The functions that neither read nor write a derived key. -/

namespace ApplyEventContext
variable {W : WorldContract} {ctx : ApplyEventContext} {txn : EventTxn} {derived : RunStore}

theorem buildEvent_derived {data : EventData} :
    ctx.buildEvent W (txn.withDerived derived) data =
      (ctx.buildEvent W txn data).map fun built => (built.1, built.2.withDerived derived) := by
  unfold buildEvent
  simp only [EventTxn.withDerived]
  cases parseWith "EventSchema" W.eventSchema _ <;> rfl

theorem writeStep_derived {id : String} {updated : Step} {stepCreated : Bool} :
    ctx.writeStep W id updated stepCreated (txn.withDerived derived) =
      (ctx.writeStep W id updated stepCreated txn).map (EventTxn.rederive derived) := by
  unfold writeStep
  rw [buildEvent_derived]
  cases parseWith "StepSchema" W.stepSchema updated with
  | error => rfl
  | ok step => cases ctx.buildEvent W txn ctx.data.data.record <;> rfl

theorem startStep_derived {id : String} {step : Step} {stepCreated : Bool} :
    ctx.startStep W id step stepCreated (txn.withDerived derived) =
      (ctx.startStep W id step stepCreated txn).map (EventTxn.rederive derived) := by
  unfold startStep
  split
  · split
    · rfl
    · exact writeStep_derived
  · exact writeStep_derived

theorem applyStepStarted_derived {id : String} {eventData : Option StepStartedData}
    {validatedStep : Option Step} :
    ctx.applyStepStarted W id eventData validatedStep (txn.withDerived derived) =
      (ctx.applyStepStarted W id eventData validatedStep txn).map (EventTxn.rederive derived) := by
  unfold applyStepStarted
  split
  · exact startStep_derived
  · rename_i creation _
    have created : ctx.createLazyStep W id creation (txn.withDerived derived) =
        (ctx.createLazyStep W id creation txn).map fun made => (made.1, made.2.withDerived derived) := by
      unfold createLazyStep
      rw [buildEvent_derived]
      cases parseWith "StepSchema" W.stepSchema _ with
      | error => rfl
      | ok step => cases ctx.buildEvent W txn (.stepCreated id creation) <;> rfl
    rw [created]
    cases ctx.createLazyStep W id creation txn with
    | error => rfl
    | ok made => exact startStep_derived
  · rfl

theorem applyStepUpdate_derived {id : String} {update : Step → Step} {validatedStep : Option Step} :
    ctx.applyStepUpdate W id update validatedStep (txn.withDerived derived) =
      (ctx.applyStepUpdate W id update validatedStep txn).map (EventTxn.rederive derived) := by
  unfold applyStepUpdate
  split
  · rfl
  · exact writeStep_derived

theorem applyHookReceived_derived {id : String} :
    ctx.applyHookReceived W id (txn.withDerived derived) =
      (ctx.applyHookReceived W id txn).map (EventTxn.rederive derived) := by
  unfold applyHookReceived
  rw [buildEvent_derived]
  cases ctx.buildEvent W txn ctx.data.data.record with
  | error => rfl
  | ok built => cases truthy ctx.resumeId <;> rfl

theorem terminalRunGuard_derived {run : WorkflowRun} :
    ctx.terminalRunGuard W run (txn.withDerived derived) =
      (ctx.terminalRunGuard W run txn).map fun guarded => (guarded.1, guarded.2.withDerived derived) := by
  unfold terminalRunGuard
  split
  · rfl
  simp only
  split
  · split
    · rw [buildEvent_derived]
      cases ctx.buildEvent W txn .runCancelled <;> rfl
    · rfl
  · rfl
  · rfl
  · rfl
  · split
    · rfl
    · split <;> rfl

/-- Step events are guarded and written without a look at the derived keys. -/
theorem applyGuarded_step {currentRun : Option WorkflowRun} {defers : Bool}
    (step : (ctx.data.data.stepTarget W).isSome = true) :
    ctx.applyGuarded W defers currentRun none (txn.withDerived derived) =
      (ctx.applyGuarded W true currentRun none txn).map (EventTxn.rederive derived) := by
  have same : stepGuard W (txn.withDerived derived).store currentRun ctx.data.data =
      stepGuard W txn.store currentRun ctx.data.data := rfl
  unfold applyGuarded
  rw [same]
  cases guarded : stepGuard W txn.store currentRun ctx.data.data with
  | error outcome => rfl
  | ok validatedStep =>
    cases request : ctx.data.data <;> simp only [request, CreateEvent.stepTarget, Option.isSome_none,
      Bool.false_eq_true] at step
    all_goals
      simp only [hookResumeGuard, hookGuard, request, applyWrites]
      split
      · rfl
    · exact applyStepStarted_derived
    · exact applyStepUpdate_derived
    · exact applyStepUpdate_derived
    · exact applyStepUpdate_derived

/-- A resume on an ended run is refused alike, whether its hook was swept or not. -/
theorem applyGuarded_received_ended {run : WorkflowRun} {id : String} {payload : Value} {defers : Bool}
    (request : ctx.data.data = .hookReceived id payload)
    (ended : isTerminalWorkflowRunStatus run.status = true) (swept : derived.hooks = ∅)
    (unforced : ∀ hook, txn.store.hooks[id]? = some hook → txn.store.hookForced[id]? = none) :
    ctx.applyGuarded W defers (some run) none (txn.withDerived derived) =
      (ctx.applyGuarded W true (some run) none txn).map (EventTxn.rederive derived) := by
  have resumes : hookResumeGuard (txn.withDerived derived).store ctx = hookResumeGuard txn.store ctx := rfl
  have hooks : hookGuard (txn.withDerived derived).store (some run) (.hookReceived id payload) =
      hookGuard txn.store (some run) (.hookReceived id payload) := by
    have absent : (txn.withDerived derived).store.hooks[id]? = none := by
      change derived.hooks[id]? = none
      rw [swept]
      rfl
    have forced : (txn.withDerived derived).store.hookForced = txn.store.hookForced := rfl
    unfold hookGuard
    simp only [absent, forced]
    split
    · rfl
    · cases stored : txn.store.hooks[id]? with
      | none => rfl
      | some hook => simp [unforced hook stored, ended]
  unfold applyGuarded
  simp only [request, stepGuard, CreateEvent.stepTarget, resumes, hooks]
  split
  · rfl
  split
  · rfl
  split
  · rfl
  · simp only [applyWrites, request]
    exact applyHookReceived_derived

/-- Disposing a hook that is not stored. -/
theorem applyGuarded_disposed {currentRun : Option WorkflowRun} {id : String} {token : Option String}
    {claimedBy : Option HookTokenOwner} {defers : Bool}
    (request : ctx.data.data = .hookDisposed id token claimedBy)
    (absent : txn.store.hooks[id]? = none) (swept : derived.hooks = ∅) :
    ctx.applyGuarded W defers currentRun none (txn.withDerived derived) =
      (ctx.applyGuarded W true currentRun none txn).map (EventTxn.rederive derived) := by
  have gone : (txn.withDerived derived).store.hooks[id]? = none := by
    change derived.hooks[id]? = none
    rw [swept]
    rfl
  have released : (txn.withDerived derived).store.hookReleased = txn.store.hookReleased := rfl
  unfold applyGuarded
  simp only [request, stepGuard, CreateEvent.stepTarget, hookResumeGuard, hookGuard, gone, absent, released]
  split
  · rfl
  split
  · rfl
  · simp only [applyWrites, request, applyHookDisposed, gone, absent]
    rfl

/-- Completing a wait that is not stored. -/
theorem applyGuarded_completed {currentRun : Option WorkflowRun} {id : String} {resumeAt : Option Nat}
    {defers : Bool} (request : ctx.data.data = .waitCompleted id resumeAt)
    (absent : txn.store.waits[id]? = none) (swept : derived.waits = ∅) :
    ctx.applyGuarded W defers currentRun none (txn.withDerived derived) =
      (ctx.applyGuarded W true currentRun none txn).map (EventTxn.rederive derived) := by
  have gone : (txn.withDerived derived).store.waits[id]? = none := by
    change derived.waits[id]? = none
    rw [swept]
    rfl
  unfold applyGuarded
  simp only [request, stepGuard, CreateEvent.stepTarget, hookResumeGuard, hookGuard]
  split
  · rfl
  · simp only [applyWrites, request, applyWaitCompleted, gone, absent]
    rfl

/-- A replayed creation of a run. -/
theorem applyGuarded_created {run : WorkflowRun} {eventData : RunCreatedData} {defers : Bool}
    (request : ctx.data.data = .runCreated eventData) (stored : txn.store.run = some run) :
    ctx.applyGuarded W defers none none (txn.withDerived derived) =
      (ctx.applyGuarded W true none none txn).map (EventTxn.rederive derived) := by
  have same : (txn.withDerived derived).store.run = some run := stored
  unfold applyGuarded
  simp only [request, stepGuard, CreateEvent.stepTarget, hookResumeGuard, hookGuard, skipRunValidation,
    applyWrites, applyRunCreated, same, stored]
  rfl

/-- The events that reach the guards after the terminal-run guard on an ended run. -/
theorem terminalRunGuard_passes {run : WorkflowRun} {txn' : EventTxn}
    (ended : isTerminalWorkflowRunStatus run.status = true)
    (passed : ctx.terminalRunGuard W run txn = .ok (none, txn')) :
    txn' = txn ∧ W.isChildEntityCreationEvent ctx.data.data = false ∧
      (ctx.skipRunValidation = false → (ctx.data.data.stepTarget W).isSome = true ∨
        (∃ id payload, ctx.data.data = .hookReceived id payload) ∨
        (∃ id token claimedBy, ctx.data.data = .hookDisposed id token claimedBy) ∨
        ∃ id resumeAt, ctx.data.data = .waitCompleted id resumeAt) := by
  unfold terminalRunGuard at passed
  rw [if_neg (by simp [ended])] at passed
  cases request : ctx.data.data <;> simp only [request] at passed
  case runCancelled =>
    split at passed
    · obtain ⟨_, -, passed⟩ := bind_ok.mp passed
      cases passed
    · cases passed
  case runStarted | runCompleted | runFailed => cases passed
  all_goals
    split at passed
    · cases passed
    rename_i child
    simp only [Bool.not_eq_true] at child
  case attrSet => cases passed
  case stepCreated id eventData => cases (W.stepCreated_isChild id eventData).symm.trans child
  case hookCreated id eventData => cases (W.hookCreated_isChild id eventData).symm.trans child
  case waitCreated id resumeAt => cases (W.waitCreated_isChild id resumeAt).symm.trans child
  all_goals
    obtain ⟨-, rfl⟩ := Prod.mk.inj (Except.ok.inj passed)
    refine ⟨rfl, child, fun reads => ?_⟩
  case runCreated => simp [skipRunValidation, request] at reads
  case stepStarted | stepCompleted | stepFailed | stepRetrying => exact .inl rfl
  case hookReceived id payload => exact .inr (.inl ⟨id, payload, rfl⟩)
  case hookDisposed id token claimedBy => exact .inr (.inr (.inl ⟨id, token, claimedBy, rfl⟩))
  case waitCompleted id resumeAt => exact .inr (.inr (.inr ⟨id, resumeAt, rfl⟩))

end ApplyEventContext

/-- On an ended run, with hooks and waits swept and none of them addressed, an event
application answers and writes the same. -/
theorem applyEvent_ended {W : WorldContract} {ctx : ApplyEventContext} {txn : EventTxn} {derived : RunStore}
    {run : WorkflowRun} {defers : Bool} (current : txn.store.run = some run)
    (ended : isTerminalWorkflowRunStatus run.status = true) (hooks : derived.hooks = ∅)
    (waits : derived.waits = ∅)
    (unforced : ∀ (id : String) hook, txn.store.hooks[id]? = some hook → txn.store.hookForced[id]? = none)
    (hidden : ctx.specVersion W = W.specVersionCurrent → run.specVersion = W.specVersionCurrent →
      W.isChildEntityCreationEvent ctx.data.data = false →
      (∀ id token claimedBy, ctx.data.data = .hookDisposed id token claimedBy → txn.store.hooks[id]? = none) ∧
      ∀ id resumeAt, ctx.data.data = .waitCompleted id resumeAt → txn.store.waits[id]? = none) :
    applyEvent W defers ctx (txn.withDerived derived) =
      (applyEvent W true ctx txn).map (EventTxn.rederive derived) := by
  have same : (txn.withDerived derived).store.run = txn.store.run := rfl
  unfold applyEvent
  split
  · rfl
  rename_i supported
  have supported : ctx.specVersion W = W.specVersionCurrent := by simpa using supported
  rw [same]
  cases skip : ctx.skipRunValidation with
  | true =>
    cases request : ctx.data.data <;> simp only [ApplyEventContext.skipRunValidation, request,
      Bool.false_eq_true] at skip
    all_goals
      have boot (txn : EventTxn) : ctx.bootstrapRun W none txn = .ok (none, none, txn) := by
        simp [ApplyEventContext.bootstrapRun, ApplyEventContext.bootstrapData, request]
      simp only [if_true, boot]
    · exact ApplyEventContext.applyGuarded_created request current
    · exact ApplyEventContext.applyGuarded_step (by rw [request]; rfl)
    · exact ApplyEventContext.applyGuarded_step (by rw [request]; rfl)
  | false =>
    have boot (txn : EventTxn) : ctx.bootstrapRun W (some run) txn = .ok (some run, none, txn) := by
      unfold ApplyEventContext.bootstrapRun
      cases ctx.bootstrapData <;> rfl
    simp only [Bool.false_eq_true, if_false, current, boot]
    simp only [bind, Except.bind]
    split
    · rfl
    rename_i version
    have version : run.specVersion = W.specVersionCurrent := by simpa using version
    rw [ApplyEventContext.terminalRunGuard_derived]
    cases guarded : ctx.terminalRunGuard W run txn with
    | error => rfl
    | ok result =>
      obtain ⟨early, txn'⟩ := result
      cases early with
      | some outcome => rfl
      | none =>
        obtain ⟨rfl, child, passes⟩ := ApplyEventContext.terminalRunGuard_passes ended guarded
        obtain ⟨undisposed, uncompleted⟩ := hidden supported version child
        simp only [Except.map]
        rcases passes skip with step | ⟨id, payload, request⟩ | ⟨id, token, claimedBy, request⟩ |
          ⟨id, resumeAt, request⟩
        · exact ApplyEventContext.applyGuarded_step step
        · exact ApplyEventContext.applyGuarded_received_ended request ended hooks (unforced id)
        · exact ApplyEventContext.applyGuarded_disposed request (undisposed id token claimedBy request) hooks
        · exact ApplyEventContext.applyGuarded_completed request (uncompleted id resumeAt request) waits

/-! The transaction of a terminal event, with and without the sweep of hooks and waits. -/

/-- What a success without deferral deletes and reports on top. -/
def EventTxn.sweep : ApplyEventOutcome × EventTxn → ApplyEventOutcome × EventTxn
  | (.ok success, txn) =>
    (.ok { success with releasedHooks := (txn.releaseAllHooks false).1 },
      (txn.releaseAllHooks false).2.releaseAllWaits false)
  | (.fail failure, txn) => (.fail failure, txn)

def CreateEvent.finishes : CreateEvent → Bool
  | .runCompleted _ | .runFailed .. | .runCancelled => true
  | _ => false

namespace ApplyEventContext
variable {W : WorldContract} {ctx : ApplyEventContext} {txn txn' : EventTxn} {success : ApplyEventSuccess}

theorem finishRun_inline {status : RunStatus} {output : Option Value} {error : Option StructuredError}
    {currentRun : Option WorkflowRun} :
    ctx.finishRun W status output error false currentRun txn =
      (ctx.finishRun W status output error true currentRun txn).map EventTxn.sweep := by
  unfold finishRun
  cases currentRun with
  | none => rfl
  | some run =>
    simp only
    cases parseWith "WorkflowRunSchema" W.workflowRunSchema _ with
    | error => rfl
    | ok finished => cases ctx.buildEvent W txn ctx.data.data.record <;> rfl

theorem applyGuarded_inline {currentRun : Option WorkflowRun} {bootstrapped : Option RunCreatedInfo} :
    ctx.applyGuarded W false currentRun bootstrapped txn =
      if ctx.data.data.finishes then
        (ctx.applyGuarded W true currentRun bootstrapped txn).map EventTxn.sweep
      else ctx.applyGuarded W true currentRun bootstrapped txn := by
  cases request : ctx.data.data <;> simp only [CreateEvent.finishes, Bool.false_eq_true, if_false, if_true]
  case runCompleted | runFailed | runCancelled =>
    simp only [applyGuarded, request, stepGuard, CreateEvent.stepTarget, hookResumeGuard, hookGuard]
    split
    · rfl
    · simp only [applyWrites, request]
      exact finishRun_inline
  all_goals simp only [applyGuarded, applyWrites, request]

end ApplyEventContext

/-- On an active run only a terminal event depends on the deferral: without it the same
success also sweeps the hooks and waits of the run that it ended. -/
theorem applyEvent_inline {W : WorldContract} {ctx : ApplyEventContext} {txn : EventTxn}
    (active : txn.store.isTerminal = false) :
    applyEvent W false ctx txn =
      if ctx.data.data.finishes then (applyEvent W true ctx txn).map EventTxn.sweep
      else applyEvent W true ctx txn := by
  unfold applyEvent
  split
  · split <;> rfl
  cases boot : ctx.bootstrapRun W (if ctx.skipRunValidation then none else txn.store.run) txn with
  | error => split <;> rfl
  | ok result =>
    obtain ⟨currentRun, bootstrapped, middle⟩ := result
    simp only [bind, Except.bind]
    cases currentRun with
    | none => exact ApplyEventContext.applyGuarded_inline
    | some run =>
      simp only
      split
      · split <;> rfl
      have passes : ctx.terminalRunGuard W run middle = .ok (none, middle) := by
        unfold ApplyEventContext.terminalRunGuard
        rw [if_pos]
        rcases (ApplyEventContext.bootstrapRun_ok boot).fresh with ⟨same, -⟩ | ⟨stored, same, pending, -, -⟩
        · split at same
          · cases same
          · simpa [RunStore.isTerminal, ← same] using active
        · obtain rfl := Option.some.inj same
          rw [pending]
          rfl
      rw [passes]
      exact ApplyEventContext.applyGuarded_inline

/-- A terminal event that is accepted has ended its run. -/
theorem applyEvent_finishes {W : WorldContract} {ctx : ApplyEventContext} {txn txn' : EventTxn}
    {success : ApplyEventSuccess} (finishes : ctx.data.data.finishes = true)
    (run : applyEvent W true ctx txn = .ok (.ok success, txn')) :
    ∃ ended, success.run = some ended ∧ txn'.store.run = some ended ∧
      isTerminalWorkflowRunStatus ended.status = true := by
  obtain ⟨ending, finish⟩ : ∃ ending, ctx.data.data.finish = some ending := by
    cases request : ctx.data.data <;> simp_all [CreateEvent.finishes, CreateEvent.finish]
  obtain ⟨ended, answered, terminal⟩ := applyEvent_ends finish run
  exact ⟨ended, answered, applyEvent_answers run ended answered, terminal⟩

/-- The inline store is the deferred store with the hooks and waits of the ended run gone. -/
def Concealed (deferred inline : RunStore) : Prop :=
  ∃ derived, inline = deferred.withDerived derived ∧ derived.hooks = ∅ ∧ derived.waits = ∅

/-- Two results of one request: the same answer, over stores that differ in derived keys. -/
inductive Alike : Except Thrown (ApplyEventOutcome × RunStore) →
    Except Thrown (ApplyEventOutcome × RunStore) → Prop
  | thrown (thrown : Thrown) : Alike (.error thrown) (.error thrown)
  | accepted {success success' : ApplyEventSuccess} {deferred inline : RunStore}
      (concealed : Concealed deferred inline) :
      Alike (.ok (.ok success, deferred)) (.ok (.ok success', inline))
  | refused {refusal : ApplyEventFailure} {deferred inline : RunStore}
      (concealed : Concealed deferred inline) :
      Alike (.ok (.fail refusal, deferred)) (.ok (.fail refusal, inline))

section Sweep
variable {txn : EventTxn}

theorem foldl_erase_absent {id : String} (hooks : List Hook) (kept : KeyMap Hook)
    (gone : kept[id]? = none ∨ ∃ hook ∈ hooks, hook.hookId = id) :
    (hooks.foldl (fun kept hook => kept.erase hook.hookId) kept)[id]? = none := by
  induction hooks generalizing kept with
  | nil => exact gone.resolve_right fun ⟨_, member, _⟩ => by cases member
  | cons hook hooks ih =>
    refine ih (kept.erase hook.hookId) ?_
    rw [Std.ExtTreeMap.getElem?_erase]
    rcases gone with absent | ⟨found, member, same⟩
    · left
      rw [absent, ite_self]
    · rcases List.mem_cons.mp member with rfl | later
      · left
        rw [same, if_pos (Std.ReflCmp.compare_self)]
      · exact .inr ⟨found, later, same⟩

/-- Releasing all hooks empties the hooks, as each is stored under its own ID. -/
theorem EventTxn.releaseAll_derived
    (keyed : ∀ (id : String) hook, txn.store.hooks[id]? = some hook → hook.hookId = id) :
    ∃ derived, (txn.releaseAllHooks false).2.releaseAllWaits false = txn.withDerived derived ∧
      derived.hooks = ∅ ∧ derived.waits = ∅ := by
  have folded (hooks : List Hook) (start : EventTxn) : ∃ hookCreated,
      hooks.foldl (fun txn hook => { txn with store := { txn.store with
        hooks := txn.store.hooks.erase hook.hookId
        hookCreated := txn.store.hookCreated.erase (hook.createdAt, hook.hookId) } }) start =
      { start with store := { start.store with
        hooks := hooks.foldl (fun kept hook => kept.erase hook.hookId) start.store.hooks, hookCreated } } := by
    induction hooks generalizing start with
    | nil => exact ⟨start.store.hookCreated, rfl⟩
    | cons hook hooks ih => exact ih _
  set hooks := txn.store.hooks.toList.map (·.2) with listed
  obtain ⟨hookCreated, released⟩ := folded hooks txn
  have swept : (hooks.foldl (fun kept hook => kept.erase hook.hookId) txn.store.hooks) = ∅ := by
    refine Std.ExtTreeMap.ext_getElem? fun {id} => ?_
    rw [foldl_erase_absent]
    · rfl
    · cases stored : txn.store.hooks[id]? with
      | none => exact .inl rfl
      | some hook =>
        refine .inr ⟨hook, ?_, keyed id hook stored⟩
        rw [listed, List.mem_map]
        exact ⟨(id, hook), Std.ExtTreeMap.mem_toList_iff_getElem?_eq_some.mpr stored, rfl⟩
  refine ⟨{ txn.store with hooks := ∅, hookCreated, waits := ∅ }, ?_, rfl, rfl⟩
  simp only [releaseAllHooks, releaseAllWaits, Bool.false_eq_true, if_false, ← listed, released, swept]
  rfl

end Sweep

section Commit
variable {W : WorldContract} {now : Nat} {deferred inline : RunStore} {success success' : ApplyEventSuccess}

theorem Concealed.mark {txn : EventTxn} {derived : RunStore} {storedSequence : Nat}
    (created : success'.runCreated = success.runCreated)
    (hooks : derived.hooks = ∅) (waits : derived.waits = ∅) :
    Concealed
      (WorkflowRunDO.putHookReferences success
        (WorkflowRunDO.recordClaimScope success (txn.persist storedSequence)))
      (WorkflowRunDO.putHookReferences success'
        (WorkflowRunDO.recordClaimScope success' ((txn.withDerived derived).persist storedSequence))) := by
  have persisted : (txn.withDerived derived).persist storedSequence =
      (txn.persist storedSequence).withDerived derived := by
    unfold EventTxn.persist EventTxn.withDerived
    simp only
    split <;> rfl
  have claimScope (store : RunStore) : WorkflowRunDO.recordClaimScope success' (store.withDerived derived) =
      (WorkflowRunDO.recordClaimScope success store).withDerived derived := by
    unfold WorkflowRunDO.recordClaimScope
    rw [created]
    split <;> rfl
  rw [persisted, claimScope]
  generalize WorkflowRunDO.recordClaimScope success (txn.persist storedSequence) = store
  obtain ⟨markers, marked⟩ := @WorkflowRunDO.putHookReferences_markers success store
  obtain ⟨markers', marked'⟩ := @WorkflowRunDO.putHookReferences_markers success' (store.withDerived derived)
  rw [marked, marked']
  exact ⟨{ derived with hookMarkers := markers' }, rfl, hooks, waits⟩

theorem Concealed.schedule {retentionMs : Nat} (concealed : Concealed deferred inline)
    (run : success'.run = success.run) :
    (∃ thrown, WorkflowRunDO.scheduleTerminalRetention W retentionMs success deferred = .error thrown ∧
        WorkflowRunDO.scheduleTerminalRetention W retentionMs success' inline = .error thrown) ∨
      ∃ scheduled scheduled' after after',
        WorkflowRunDO.scheduleTerminalRetention W retentionMs success deferred = .ok (scheduled, after) ∧
        WorkflowRunDO.scheduleTerminalRetention W retentionMs success' inline = .ok (scheduled', after') ∧
        scheduled'.run = scheduled.run ∧ Concealed after after' := by
  obtain ⟨derived, rfl, hooks, waits⟩ := concealed
  have cleanup : (deferred.withDerived derived).cleanup = deferred.cleanup := rfl
  unfold WorkflowRunDO.scheduleTerminalRetention
  rw [run]
  cases finished : success.run with
  | none => exact .inr ⟨_, _, _, _, rfl, rfl, run.trans finished ▸ finished ▸ rfl, derived, rfl, hooks, waits⟩
  | some stored =>
    simp only [cleanup]
    split
    · cases retentionDeadline (stored.completedAt.getD 0) retentionMs stored.runId with
      | error thrown => exact .inl ⟨thrown, rfl, rfl⟩
      | ok dueAt =>
        simp only [bind, Except.bind]
        cases parseWith "WorkflowRunSchema" W.workflowRunSchema { stored with expiredAt := some dueAt } with
        | error thrown => exact .inl ⟨thrown, rfl, rfl⟩
        | ok expired =>
          exact .inr ⟨_, _, _, _, rfl, rfl, rfl, { derived with alarm := some dueAt }, rfl, hooks, waits⟩
    · exact .inr ⟨_, _, _, _, rfl, rfl, run, derived, rfl, hooks, waits⟩

theorem Concealed.startTerminalCleanup (concealed : Concealed deferred inline)
    (run : success'.run = success.run) :
    Concealed (WorkflowRunDO.startTerminalCleanup now success deferred)
      (WorkflowRunDO.startTerminalCleanup now success' inline) := by
  obtain ⟨derived, rfl, hooks, waits⟩ := concealed
  unfold WorkflowRunDO.startTerminalCleanup
  rw [run]
  split
  · exact ⟨derived, rfl, hooks, waits⟩
  · split
    · exact ⟨{ derived with
        terminalCleanup := derived.terminalCleanup.or (some ⟨_, .hooks, 0, 0, none, none⟩)
        alarm := some (now + 1) }, rfl, hooks, waits⟩
    · exact ⟨derived, rfl, hooks, waits⟩

/-- The cell's bookkeeping around two like successes. -/
theorem commitOutcome_alike {request : ApplyEventRequest} {storedSequence : Nat} {txn : EventTxn}
    {derived : RunStore} (run : success'.run = success.run) (created : success'.runCreated = success.runCreated)
    (hooks : derived.hooks = ∅) (waits : derived.waits = ∅) :
    Alike (WorkflowRunDO.commitOutcome W request now storedSequence success txn)
      (WorkflowRunDO.commitOutcome W request now storedSequence success' (txn.withDerived derived)) := by
  have marked := @Concealed.mark success success' txn derived storedSequence created hooks waits
  unfold WorkflowRunDO.commitOutcome
  simp only
  rcases marked.schedule run with ⟨thrown, failed, failed'⟩ |
    ⟨scheduled, scheduled', after, after', done, done', same, concealed⟩
  · rw [failed, failed']
    exact .thrown thrown
  · rw [done, done']
    simp only [bind, Except.bind]
    obtain ⟨finished, page, -⟩ := @finalizeEventPage_event W
      (WorkflowRunDO.startTerminalCleanup now scheduled after)
      (WorkflowRunDO.setPublicationDeadline now scheduled) request.params
    obtain ⟨finished', page', -⟩ := @finalizeEventPage_event W
      (WorkflowRunDO.startTerminalCleanup now scheduled' after')
      (WorkflowRunDO.setPublicationDeadline now scheduled') request.params
    rw [page, page']
    exact .accepted (concealed.startTerminalCleanup same)

end Commit

end CelldWorld
