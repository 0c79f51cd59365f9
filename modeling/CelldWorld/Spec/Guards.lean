import CelldWorld.Spec.Writes

namespace CelldWorld

/-- The events that a run in a terminal state refuses. -/
def CreateEvent.needsActiveRun (W : WorldContract) : CreateEvent → Bool
  | .runStarted _ | .runCompleted _ | .runFailed .. | .runCancelled | .attrSet .. | .stepCreated ..
  | .hookCreated .. | .waitCreated .. => true
  | .stepStarted id eventData => W.isChildEntityCreationEvent (.stepStarted id eventData)
  | _ => false

/-- Can the event create its run? -/
def CreateEvent.createsRun : CreateEvent → Bool
  | .runCreated _ | .runStarted (some _) => true
  | _ => false

namespace ApplyEventContext
variable {W : WorldContract} {ctx : ApplyEventContext} {txn txn' : EventTxn}

/-- What `bootstrapRun` hands on: the run that was read, or a run that it has created. -/
inductive Bootstrapped (W : WorldContract) (ctx : ApplyEventContext) (currentRun : Option WorkflowRun)
    (txn : EventTxn) : Option WorkflowRun → Option RunCreatedInfo → EventTxn → Prop
  | read : Bootstrapped W ctx currentRun txn currentRun none txn
  | created {eventData : RunStartedData} {creation : RunCreatedData} {event : Event}
      (request : ctx.data.data = .runStarted (some eventData)) (absent : currentRun = none)
      (valid : W.workflowRunSchema ((ctx.stamp W).createdRun creation) = true)
      (built : ctx.Built W txn (.runCreated creation) event) :
      Bootstrapped W ctx currentRun txn (some ((ctx.stamp W).createdRun creation))
        (some ⟨creation.workflowName, ctx.now⟩)
        ((txn.nextSlot.putRun ((ctx.stamp W).createdRun creation)).putEvent event)

theorem bootstrapRun_ok {currentRun handed : Option WorkflowRun} {info : Option RunCreatedInfo}
    (run : ctx.bootstrapRun W currentRun txn = .ok (handed, info, txn')) :
    ctx.Bootstrapped W currentRun txn handed info txn' := by
  unfold bootstrapRun at run
  split at run
  · rename_i eventData request
    obtain ⟨-, -, run⟩ := bind_ok.mp run
    obtain ⟨created, parsed, run⟩ := bind_ok.mp run
    obtain ⟨valid, rfl⟩ := parseWith_ok.mp parsed
    obtain ⟨⟨event, middle⟩, build, run⟩ := bind_ok.mp run
    obtain ⟨built, rfl⟩ := buildEvent_ok build
    cases run
    unfold bootstrapData at request
    split at request
    · rename_i started
      exact .created started rfl valid built
    · cases request
  · cases run
    exact .read

/-- The terminal-run guard lets an event pass, refuses it, or journals a repeated
cancellation. -/
theorem terminalRunGuard_cases {stored : WorkflowRun} {early : Option ApplyEventOutcome}
    (run : ctx.terminalRunGuard W stored txn = .ok (early, txn')) :
    (early = none ∧ txn' = txn ∧ (ctx.data.data.needsActiveRun W = true →
        isTerminalWorkflowRunStatus stored.status = false)) ∨
      (∃ refusal, early = some (.fail refusal) ∧ txn' = txn) ∨
      (∃ event, early = some (.ok { event := some event, run := some stored }) ∧ ctx.data.data = .runCancelled ∧
        stored.status = .cancelled ∧ ctx.Built W txn .runCancelled event ∧
          txn' = txn.nextSlot.putEvent event) := by
  unfold terminalRunGuard at run
  split at run
  · rename_i active
    cases run
    exact .inl ⟨rfl, rfl, fun _ => active⟩
  simp only at run
  split at run
  · rename_i request
    split at run
    · rename_i cancelled
      obtain ⟨⟨event, middle⟩, build, run⟩ := bind_ok.mp run
      obtain ⟨built, rfl⟩ := buildEvent_ok build
      cases run
      exact .inr (.inr ⟨event, rfl, request, cancelled, built, rfl⟩)
    · cases run
      exact .inr (.inl ⟨_, rfl, rfl⟩)
  · cases run
    exact .inr (.inl ⟨_, rfl, rfl⟩)
  · cases run
    exact .inr (.inl ⟨_, rfl, rfl⟩)
  · cases run
    exact .inr (.inl ⟨_, rfl, rfl⟩)
  rename_i notCancelled notStarted notCompleted notFailed
  split at run
  · cases run
    exact .inr (.inl ⟨_, rfl, rfl⟩)
  rename_i notChild
  split at run
  · cases run
    exact .inr (.inl ⟨_, rfl, rfl⟩)
  rename_i notAttr
  cases run
  refine .inl ⟨rfl, rfl, fun needs => ?_⟩
  cases request : ctx.data.data <;>
    simp_all [CreateEvent.needsActiveRun, W.stepCreated_isChild, W.hookCreated_isChild,
      W.waitCreated_isChild]

end ApplyEventContext

/-- A step event passes its guard with the stored step, unfinished, or with no
step at all where it may create one. -/
theorem stepGuard_ok {W : WorldContract} {store : RunStore} {currentRun : Option WorkflowRun}
    {data : CreateEvent} {validatedStep : Option Step} {id : String} {lazyStepStart : Bool}
    (target : data.stepTarget W = some (id, lazyStepStart))
    (passed : stepGuard W store currentRun data = .ok validatedStep) :
    validatedStep = store.steps[id]? ∧
      (∀ step, validatedStep = some step → isTerminalStepStatus step.status = false) ∧
      (validatedStep = none → lazyStepStart = true) := by
  unfold stepGuard at passed
  rw [target] at passed
  simp only at passed
  cases stored : store.steps[id]? with
  | none =>
    rw [stored] at passed
    simp only at passed
    split at passed
    · rename_i creates
      cases passed
      exact ⟨rfl, fun _ same => (by cases same), fun _ => creates⟩
    · cases passed
  | some step =>
    rw [stored] at passed
    simp only at passed
    split at passed
    · cases passed
    · split at passed
      · cases passed
      · rename_i unfinished
        have unfinished : isTerminalStepStatus step.status = false := by simpa using unfinished
        have same : validatedStep = some step := by
          split at passed
          · split at passed
            · cases passed
            · exact (Except.ok.inj passed).symm
          · exact (Except.ok.inj passed).symm
        obtain rfl := same
        exact ⟨rfl, fun other same => Option.some.inj same ▸ unfinished, fun same => by cases same⟩

/-- `hook_received` passes the resume guard while no event answers for its resume ID. -/
theorem hookResumeGuard_unclaimed {store : RunStore} {ctx : ApplyEventContext} {id resumeId : String}
    {payload : Value} (request : ctx.data.data = .hookReceived id payload)
    (passed : hookResumeGuard store ctx = none) (resume : truthy ctx.resumeId = some resumeId) :
    store.Unclaimed resumeId := by
  intro claim claimed
  unfold hookResumeGuard at passed
  simp only [request, resume, claimed] at passed
  have committed : hookResumeGuard.committedResume store claim resumeId = none := by
    split at passed
    · cases passed
    split at passed
    · split at passed
      · cases passed
      · exact passed
    · exact passed
  unfold hookResumeGuard.committedResume at committed
  split at committed
  · assumption
  · split at committed <;> cases committed

/-- `hook_received` passes the hook guard on a live hook of an active run only,
unless its correlation ID is empty. -/
theorem hookGuard_received {store : RunStore} {currentRun : Option WorkflowRun} {id : String}
    {payload : Value} (passed : hookGuard store currentRun (.hookReceived id payload) = none)
    (nonempty : id ≠ "") :
    (∃ hook, store.hooks[id]? = some hook) ∧
      ∀ run, currentRun = some run → isTerminalWorkflowRunStatus run.status = false := by
  unfold hookGuard at passed
  simp only [nonempty, if_false] at passed
  split at passed
  · split at passed <;> cases passed
  · rename_i hook stored
    refine ⟨⟨hook, stored⟩, fun run current => ?_⟩
    subst current
    simpa using passed

namespace ApplyEventContext
variable {W : WorldContract} {ctx : ApplyEventContext} {txn txn' : EventTxn} {success : ApplyEventSuccess}

theorem stepGuard_refuses {store : RunStore} {currentRun : Option WorkflowRun} {data : CreateEvent} :
    stepGuard W store currentRun data ≠ .error (.ok success) := by
  intro refused
  unfold stepGuard at refused
  repeat' split at refused
  all_goals cases refused

/-- The resume guard answers a claimed resume with the event that has recorded it. -/
theorem hookResumeGuard_answers {store : RunStore}
    (answered : hookResumeGuard store ctx = some (.ok success)) :
    ∃ id payload event, ctx.data.data = .hookReceived id payload ∧
      (∃ eventId : String, store.events[eventId]? = some event) ∧ success = { event := some event } := by
  have committed {claim : HookResumeClaim} {resumeId : String}
      (answered : hookResumeGuard.committedResume store claim resumeId = some (.ok success)) :
      ∃ event, (∃ eventId : String, store.events[eventId]? = some event) ∧
        success = { event := some event } := by
    unfold hookResumeGuard.committedResume at answered
    split at answered
    · cases answered
    · rename_i event stored
      split at answered <;> cases answered
      exact ⟨event, ⟨_, stored⟩, rfl⟩
  unfold hookResumeGuard at answered
  split at answered
  · rename_i id payload _ request _
    refine ⟨id, payload, ?_⟩
    suffices recorded : ∃ event, (∃ eventId : String, store.events[eventId]? = some event) ∧
        success = { event := some event } by
      obtain ⟨event, stored, rfl⟩ := recorded
      exact ⟨event, request, stored, rfl⟩
    split at answered
    · cases answered
    split at answered
    · cases answered
    split at answered
    · split at answered
      · cases answered
      · exact committed answered
    · exact committed answered
  · cases answered

/-- The hook guard answers a repeated disposal with the hook that was released. -/
theorem hookGuard_answers {store : RunStore} {currentRun : Option WorkflowRun} {data : CreateEvent}
    (answered : hookGuard store currentRun data = some (.ok success)) :
    ∃ id token claimedBy released, data = .hookDisposed id token claimedBy ∧
      success = { releasedHooks := [released] } := by
  unfold hookGuard at answered
  repeat' split at answered
  all_goals cases answered
  exact ⟨_, _, _, _, rfl, rfl⟩

/-- The run that the writes are handed, and what their event may find in it. -/
structure Entered (W : WorldContract) (ctx : ApplyEventContext) (currentRun : Option WorkflowRun)
    (txn : EventTxn) : Prop where
  current : ctx.skipRunValidation = false → currentRun = txn.store.run
  active : ctx.data.data.needsActiveRun W = true →
    ∀ run, currentRun = some run → isTerminalWorkflowRunStatus run.status = false

/-- What the guards let through to the writes. -/
structure Admitted (W : WorldContract) (ctx : ApplyEventContext) (currentRun : Option WorkflowRun)
    (validatedStep : Option Step) (txn : EventTxn) : Prop extends Entered W ctx currentRun txn where
  found : ctx.skipRunValidation = false → ctx.isRunStarted = false → currentRun ≠ none
  step : stepGuard W txn.store currentRun ctx.data.data = .ok validatedStep
  resume : hookResumeGuard txn.store ctx = none
  hook : hookGuard txn.store currentRun ctx.data.data = none

/-- What a success of `applyGuarded` did: a guard answered it, or the writes did. -/
inductive Guarded (W : WorldContract) (ctx : ApplyEventContext) (currentRun : Option WorkflowRun)
    (bootstrapped : Option RunCreatedInfo) (txn : EventTxn) : ApplyEventSuccess → EventTxn → Prop
  | resumed {id eventId : String} {payload : Value} {event : Event}
      (request : ctx.data.data = .hookReceived id payload) (stored : txn.store.events[eventId]? = some event) :
      Guarded W ctx currentRun bootstrapped txn { event := some event } txn
  | released {id : String} {token : Option String} {claimedBy : Option HookTokenOwner}
      {released : HookIndexReference} (request : ctx.data.data = .hookDisposed id token claimedBy) :
      Guarded W ctx currentRun bootstrapped txn { releasedHooks := [released] } txn
  | wrote {validatedStep : Option Step} {success : ApplyEventSuccess} {txn' : EventTxn}
      (admitted : ctx.Admitted W currentRun validatedStep txn)
      (wrote : ctx.Wrote W currentRun bootstrapped validatedStep txn success txn') :
      Guarded W ctx currentRun bootstrapped txn success txn'

theorem applyGuarded_settled {currentRun : Option WorkflowRun} {bootstrapped : Option RunCreatedInfo}
    {outcome : ApplyEventOutcome} (entered : ctx.Entered W currentRun txn)
    (run : ctx.applyGuarded W true currentRun bootstrapped txn = .ok (outcome, txn')) :
    Settled (ctx.Guarded W currentRun bootstrapped txn) txn outcome txn' := by
  unfold applyGuarded at run
  split at run
  · rename_i answer refused
    obtain ⟨rfl, rfl⟩ := Prod.mk.inj (Except.ok.inj run)
    cases answer with
    | fail refusal => exact .refused refusal
    | ok success => exact absurd refused stepGuard_refuses
  rename_i validatedStep step
  split at run
  · rename_i answer answered
    obtain ⟨rfl, rfl⟩ := Prod.mk.inj (Except.ok.inj run)
    cases answer with
    | fail refusal => exact .refused refusal
    | ok success =>
      obtain ⟨id, payload, event, request, ⟨eventId, stored⟩, rfl⟩ := hookResumeGuard_answers answered
      exact .done (.resumed request stored)
  rename_i resume
  split at run
  · rename_i answer answered
    obtain ⟨rfl, rfl⟩ := Prod.mk.inj (Except.ok.inj run)
    cases answer with
    | fail refusal => exact .refused refusal
    | ok success =>
      obtain ⟨id, token, claimedBy, released, request, rfl⟩ := hookGuard_answers answered
      exact .done (.released request)
  rename_i hook
  split at run
  · cases run
    exact .refused _
  · rename_i found
    have found : ctx.skipRunValidation = false → ctx.isRunStarted = false → currentRun ≠ none :=
      fun reads other absent => found ⟨reads, other, absent⟩
    exact (applyWrites_settled run).imp fun _ _ => .wrote ⟨entered, found, step, resume, hook⟩

/-- A `run_started` is refused by its writes only, and only where there is no run. -/
theorem applyGuarded_started {stored : WorkflowRun} {bootstrapped : Option RunCreatedInfo}
    {refusal : ApplyEventFailure} (started : ctx.isRunStarted = true) :
    ctx.applyGuarded W true (some stored) bootstrapped txn ≠ .ok (.fail refusal, txn') := by
  intro run
  cases request : ctx.data.data <;> simp only [isRunStarted, request, Bool.false_eq_true] at started
  simp only [applyGuarded, request, stepGuard, CreateEvent.stepTarget, hookResumeGuard, hookGuard] at run
  split at run
  · rename_i refused
    simp at refused
  simp only [applyWrites, request, applyRunStarted] at run
  split at run
  · cases run
  · obtain ⟨_, -, run⟩ := bind_ok.mp run
    obtain ⟨_, -, run⟩ := bind_ok.mp run
    cases run

/-- What a successful `applyEvent` did: a repeated cancellation was journaled once more, or
the event went on to the guards behind it. -/
inductive Applied (W : WorldContract) (ctx : ApplyEventContext) (txn : EventTxn) :
    ApplyEventSuccess → EventTxn → Prop
  | cancelledAgain {run : WorkflowRun} {event : Event} (request : ctx.data.data = .runCancelled)
      (stored : txn.store.run = some run) (cancelled : run.status = .cancelled)
      (built : ctx.Built W txn .runCancelled event) :
      Applied W ctx txn { event := some event, run := some run } (txn.nextSlot.putEvent event)
  | guarded {currentRun : Option WorkflowRun} {info : Option RunCreatedInfo} {first txn' : EventTxn}
      {success : ApplyEventSuccess}
      (boot : ctx.Bootstrapped W (if ctx.skipRunValidation then none else txn.store.run) txn
        currentRun info first)
      (guarded : ctx.Guarded W currentRun info first success txn') : Applied W ctx txn success txn'

/-- The run that is handed on is the stored one, for every event that reads it. -/
theorem Bootstrapped.current {currentRun : Option WorkflowRun} {info : Option RunCreatedInfo}
    (boot : ctx.Bootstrapped W (if ctx.skipRunValidation then none else txn.store.run) txn currentRun info txn')
    (reads : ctx.skipRunValidation = false) : currentRun = txn'.store.run := by
  cases boot with
  | read => rw [reads]; rfl
  | created => rfl

theorem Bootstrapped.reads {stored : WorkflowRun} {info : Option RunCreatedInfo}
    (boot : ctx.Bootstrapped W (if ctx.skipRunValidation then none else txn.store.run) txn
      (some stored) info txn') :
    ctx.skipRunValidation = false := by
  generalize handed : some stored = currentRun at boot
  cases boot with
  | read =>
    cases skip : ctx.skipRunValidation with
    | false => rfl
    | true => simp [skip] at handed
  | created request => simp only [skipRunValidation, request]

/-- A run that was created is pending and of the request's own spec version, and its event is
a `run_started`. -/
theorem Bootstrapped.fresh {currentRun handed : Option WorkflowRun} {info : Option RunCreatedInfo}
    (boot : ctx.Bootstrapped W currentRun txn handed info txn') :
    (handed = currentRun ∧ txn' = txn) ∨
      ∃ stored, handed = some stored ∧ stored.status = .pending ∧
        stored.specVersion = ctx.specVersion W ∧ ctx.isRunStarted = true := by
  cases boot with
  | read => exact .inl ⟨rfl, rfl⟩
  | created request => exact .inr ⟨_, rfl, rfl, rfl, by simp only [isRunStarted, request]⟩

end ApplyEventContext

section Event
variable {W : WorldContract} {ctx : ApplyEventContext} {txn txn' : EventTxn} {success : ApplyEventSuccess}

open ApplyEventContext

/-- An event application refuses and has written nothing, or succeeds. A run that it has
bootstrapped is pending and supported, so the rest of its `run_started` cannot refuse. -/
theorem applyEvent_settled {outcome : ApplyEventOutcome} (run : applyEvent W true ctx txn = .ok (outcome, txn')) :
    Settled (ctx.Applied W txn) txn outcome txn' := by
  unfold applyEvent at run
  split at run
  · cases run
    exact .refused _
  rename_i supported
  obtain ⟨⟨currentRun, bootstrapped, first⟩, booted, rest⟩ := bind_ok.mp run
  have boot := bootstrapRun_ok booted
  rcases boot.fresh with ⟨-, rfl⟩ | ⟨stored, rfl, pending, version, started⟩
  · cases currentRun with
    | none =>
      exact (applyGuarded_settled ⟨boot.current, fun _ _ same => by cases same⟩ rest).imp fun _ _ => .guarded boot
    | some stored =>
      simp only at rest
      split at rest
      · cases rest
        exact .refused _
      obtain ⟨⟨early, later⟩, guard, answered⟩ := bind_ok.mp rest
      rcases terminalRunGuard_cases guard with ⟨rfl, rfl, active⟩ | ⟨refusal, rfl, rfl⟩ |
        ⟨event, rfl, request, cancelled, built, rfl⟩
      · refine (applyGuarded_settled ⟨boot.current, ?_⟩ answered).imp fun _ _ => .guarded boot
        exact fun needs _ same => Option.some.inj same ▸ active needs
      · cases answered
        exact .refused refusal
      · cases answered
        exact .done (.cancelledAgain request (boot.current boot.reads).symm cancelled built)
  · have supported : ctx.specVersion W = W.specVersionCurrent := by simpa using supported
    simp only [version, supported, ne_eq, not_true_eq_false, if_false] at rest
    have passes : ctx.terminalRunGuard W stored first = .ok (none, first) := by
      simp [terminalRunGuard, pending, isTerminalWorkflowRunStatus]
    rw [passes] at rest
    have entered : ctx.Entered W (some stored) first :=
      ⟨boot.current, fun _ _ same => Option.some.inj same ▸ (by rw [pending]; rfl)⟩
    cases applyGuarded_settled entered rest with
    | refused refusal => exact absurd rest (applyGuarded_started started)
    | done guarded => exact .done (.guarded boot guarded)

theorem applyEvent_applied (run : applyEvent W true ctx txn = .ok (.ok success, txn')) :
    ctx.Applied W txn success txn' := by
  cases applyEvent_settled run with
  | done applied => exact applied

/-- A refused event application has written nothing. -/
theorem applyEvent_refuses {refusal : ApplyEventFailure}
    (run : applyEvent W true ctx txn = .ok (.fail refusal, txn')) : txn' = txn := by
  cases applyEvent_settled run with
  | refused => rfl

/-- An application succeeds for the current spec version only. -/
theorem applyEvent_supported (run : applyEvent W true ctx txn = .ok (.ok success, txn')) :
    ctx.specVersion W = W.specVersionCurrent := by
  unfold applyEvent at run
  split at run
  · cases run
  · rename_i supported
    simpa using supported

end Event

end CelldWorld
