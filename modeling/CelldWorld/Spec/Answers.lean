import CelldWorld.Spec.Journals

namespace CelldWorld

/-- An answer that carries a run carries the run as the transaction stored it. -/
def EventTxn.Answers (txn : EventTxn) (success : ApplyEventSuccess) : Prop :=
  ∀ run, success.run = some run → txn.store.run = some run

theorem EventTxn.Answers.of_none {txn : EventTxn} {success : ApplyEventSuccess}
    (absent : success.run = none) : txn.Answers success := by
  intro run same
  rw [absent] at same
  cases same

/-- An answer that reports a creation was given to an event that creates a run, and the
run was missing. -/
def ApplyEventSuccess.Creates (success : ApplyEventSuccess) (ctx : ApplyEventContext) (store : RunStore) : Prop :=
  success.runCreated.isSome → store.run = none ∧ ctx.data.data.createsRun = true

theorem ApplyEventSuccess.Creates.of_none {success : ApplyEventSuccess} {ctx : ApplyEventContext}
    {store : RunStore}
    (absent : success.runCreated = none) : success.Creates ctx store :=
  fun created => by simp [absent] at created

/-- The event of an answer is stored, and its page is the log that a `run_started` preloads. -/
structure EventTxn.Reports (W : WorldContract) (ctx : ApplyEventContext) (txn : EventTxn)
    (success : ApplyEventSuccess) :
    Prop where
  event : ∀ event, success.event = some event → ∃ key : String, txn.store.events[key]? = some event
  page : success.page = if ctx.isRunStarted then ctx.preloadEvents W txn else none

theorem EventTxn.Reports.of_other {W : WorldContract} {ctx : ApplyEventContext} {txn : EventTxn}
    {success : ApplyEventSuccess} (other : ctx.isRunStarted = false) (unpaged : success.page = none)
    (stored : ∀ event, success.event = some event → ∃ key : String, txn.store.events[key]? = some event) :
    txn.Reports W ctx success :=
  ⟨stored, by rw [unpaged, other]; rfl⟩

namespace ApplyEventContext
variable {W : WorldContract} {ctx : ApplyEventContext} {txn txn' : EventTxn} {success : ApplyEventSuccess}
  {currentRun : Option WorkflowRun} {bootstrapped : Option RunCreatedInfo} {validatedStep : Option Step}

/-- What the writes of a step, a hook or a wait have in common: they leave the run alone,
store the event they answer, and answer no run and no page. -/
structure Aside (ctx : ApplyEventContext) (txn : EventTxn) (success : ApplyEventSuccess) (txn' : EventTxn) :
    Prop where
  run : txn'.store.run = txn.store.run
  unanswered : success.run = none
  uncreated : success.runCreated = none
  unpaged : success.page = none
  stored : ∀ event, success.event = some event → ∃ key : String, txn'.store.events[key]? = some event
  other : ctx.isRunStarted = false
  unending : ctx.data.data.finish = none

/-- The event that was just put is stored. -/
theorem stored_of_put {event : Event} {events : KeyMap Event} (found : Event) (same : some event = some found) :
    ∃ key : String, (events.insert event.eventId event)[key]? = some found :=
  ⟨event.eventId, Option.some.inj same ▸ Std.ExtTreeMap.getElem?_insert_self⟩

/-- An answer without an event has none to store. -/
theorem stored_of_silent {events : KeyMap Event} (found : Event) (same : none = some found) :
    ∃ key : String, events[key]? = some found := by
  cases same

theorem WroteStep.aside (wrote : ctx.WroteStep W validatedStep txn success txn') :
    ctx.Aside txn success txn' := by
  cases wrote with
  | created request => exact ⟨rfl, rfl, rfl, rfl, stored_of_put, by simp only [isRunStarted, request],
      by rw [request]; rfl⟩
  | started request => exact ⟨rfl, rfl, rfl, rfl, stored_of_put, by simp only [isRunStarted, request],
      by rw [request]; rfl⟩
  | startedLazily request _ _ stores =>
    subst stores
    exact ⟨rfl, rfl, rfl, rfl, stored_of_put, by simp only [isRunStarted, request],
      by rw [request]; rfl⟩
  | updated request =>
    have about : ctx.isRunStarted = false ∧ ctx.data.data.finish = none := by
      cases data : ctx.data.data <;> simp_all [CreateEvent.stepUpdate, isRunStarted, CreateEvent.finish]
    exact ⟨rfl, rfl, rfl, rfl, stored_of_put, about.1, about.2⟩

theorem WroteHook.aside (wrote : ctx.WroteHook W txn success txn') : ctx.Aside txn success txn' := by
  cases wrote with
  | conflict request => exact ⟨rfl, rfl, rfl, rfl, stored_of_put, by simp only [isRunStarted, request],
      by rw [request]; rfl⟩
  | replayed request => exact ⟨rfl, rfl, rfl, rfl, stored_of_silent, by simp only [isRunStarted, request],
      by rw [request]; rfl⟩
  | created request => exact ⟨rfl, rfl, rfl, rfl, stored_of_put, by simp only [isRunStarted, request],
      by rw [request]; rfl⟩
  | received request => exact ⟨rfl, rfl, rfl, rfl, stored_of_put, by simp only [isRunStarted, request],
      by rw [request]; rfl⟩
  | disposed request => exact ⟨rfl, rfl, rfl, rfl, stored_of_put, by simp only [isRunStarted, request],
      by rw [request]; rfl⟩

theorem WroteWait.aside (wrote : ctx.WroteWait W txn success txn') : ctx.Aside txn success txn' := by
  cases wrote with
  | created request => exact ⟨rfl, rfl, rfl, rfl, stored_of_put, by simp only [isRunStarted, request],
      by rw [request]; rfl⟩
  | completed request => exact ⟨rfl, rfl, rfl, rfl, stored_of_put, by simp only [isRunStarted, request],
      by rw [request]; rfl⟩

/-- What the writes behind the guards did: they wrote the run, or something aside from it. -/
theorem Wrote.cases_run (wrote : ctx.Wrote W currentRun bootstrapped validatedStep txn success txn') :
    ctx.WroteRun W currentRun bootstrapped txn success txn' ∨ ctx.Aside txn success txn' := by
  cases wrote with
  | run wrote => exact .inl wrote
  | step wrote => exact .inr wrote.aside
  | hook wrote => exact .inr wrote.aside
  | wait wrote => exact .inr wrote.aside

/-- A guard that answers writes nothing. -/
theorem Guarded.cases_run (guarded : ctx.Guarded W currentRun bootstrapped txn success txn') :
    (∃ validatedStep, ctx.Admitted W currentRun validatedStep txn ∧
      ctx.WroteRun W currentRun bootstrapped txn success txn') ∨ ctx.Aside txn success txn' := by
  cases guarded with
  | resumed request stored =>
    exact .inr ⟨rfl, rfl, rfl, rfl, fun _ same => ⟨_, Option.some.inj same ▸ stored⟩,
      by simp only [isRunStarted, request], by rw [request]; rfl⟩
  | released request =>
    exact .inr ⟨rfl, rfl, rfl, rfl, stored_of_silent, by simp only [isRunStarted, request], by rw [request]; rfl⟩
  | wrote admitted wrote => exact wrote.cases_run.imp_left fun wrote => ⟨_, admitted, wrote⟩

theorem WroteRun.answers (entered : ctx.Entered W currentRun txn)
    (wrote : ctx.WroteRun W currentRun bootstrapped txn success txn') : txn'.Answers success := by
  cases wrote with
  | runExists request stored => exact fun _ same => stored.trans same
  | runRunning request current =>
    have stored := (entered.current (by simp only [skipRunValidation, request])).symm.trans current
    exact fun _ same => stored.trans same
  | runStarted _ _ _ _ _ stores =>
    subst stores
    exact fun _ same => same
  | runCreated | runFinished | attrSet => exact fun _ same => same

/-- The writes of a terminal run event answer the run that they have ended. -/
theorem WroteRun.ends {ending : RunStatus × Option Value × Option StructuredError}
    (finishes : ctx.data.data.finish = some ending)
    (wrote : ctx.WroteRun W currentRun bootstrapped txn success txn') :
    ∃ ended, success.run = some ended ∧ ended.status = ending.1 := by
  cases wrote with
  | runFinished request => exact ⟨_, rfl, congrArg Prod.fst (Option.some.inj (request.symm.trans finishes))⟩
  | runExists request | runCreated request | runRunning request | runStarted request | attrSet request =>
    rw [request] at finishes
    cases finishes

/-- A creation is reported by the creation itself, or by the start that bootstrapped it. -/
theorem WroteRun.creates (wrote : ctx.WroteRun W currentRun bootstrapped txn success txn') :
    success.runCreated = none ∨ success.runCreated = bootstrapped ∨
      txn.store.run = none ∧ ∃ eventData, ctx.data.data = .runCreated eventData := by
  cases wrote with
  | runCreated request absent => exact .inr (.inr ⟨absent, _, request⟩)
  | runStarted => exact .inr (.inl rfl)
  | runExists | runRunning | runFinished | attrSet => exact .inl rfl

theorem WroteRun.reports (wrote : ctx.WroteRun W currentRun bootstrapped txn success txn') :
    txn'.Reports W ctx success := by
  cases wrote with
  | runExists request => exact .of_other (by simp only [isRunStarted, request]) rfl stored_of_silent
  | runCreated request => exact .of_other (by simp only [isRunStarted, request]) rfl stored_of_put
  | runRunning request =>
    have started : ctx.isRunStarted = true := by simp only [isRunStarted, request]
    exact ⟨stored_of_silent, (if_pos started).symm⟩
  | runStarted request _ _ _ _ stores =>
    have started : ctx.isRunStarted = true := by simp only [isRunStarted, request]
    subst stores
    exact ⟨stored_of_put, (if_pos started).symm⟩
  | runFinished request =>
    have other : ctx.isRunStarted = false := by
      cases data : ctx.data.data <;> simp_all [CreateEvent.finish, isRunStarted]
    exact .of_other other rfl stored_of_put
  | attrSet request => exact .of_other (by simp only [isRunStarted, request]) rfl stored_of_put

end ApplyEventContext

section Event
variable {W : WorldContract} {ctx : ApplyEventContext} {txn txn' : EventTxn} {success : ApplyEventSuccess}

/-- The run of a successful answer is the run that the transaction leaves stored. -/
theorem applyEvent_answers (run : applyEvent W true ctx txn = .ok (.ok success, txn')) :
    txn'.Answers success := by
  cases applyEvent_applied run with
  | cancelledAgain request stored => exact fun _ same => stored.trans same
  | guarded boot guarded =>
    rcases guarded.cases_run with ⟨_, admitted, wrote⟩ | aside
    · exact wrote.answers admitted.toEntered
    · exact .of_none aside.unanswered

/-- A terminal event that is accepted has ended its run, now or by an earlier cancellation. -/
theorem applyEvent_ends {ending : RunStatus × Option Value × Option StructuredError}
    (finishes : ctx.data.data.finish = some ending) (run : applyEvent W true ctx txn = .ok (.ok success, txn')) :
    ∃ ended, success.run = some ended ∧ isTerminalWorkflowRunStatus ended.status = true := by
  cases applyEvent_applied run with
  | cancelledAgain _ _ cancelled => exact ⟨_, rfl, by rw [cancelled]; rfl⟩
  | guarded boot guarded =>
    rcases guarded.cases_run with ⟨_, -, wrote⟩ | aside
    · obtain ⟨ended, answered, status⟩ := wrote.ends finishes
      exact ⟨ended, answered, status ▸ CreateEvent.finish_terminal finishes⟩
    · cases aside.unending.symm.trans finishes

/-- Only an event that creates a missing run reports its creation. -/
theorem applyEvent_creates (run : applyEvent W true ctx txn = .ok (.ok success, txn')) :
    success.Creates ctx txn.store := by
  cases applyEvent_applied run with
  | cancelledAgain => exact .of_none rfl
  | guarded boot guarded =>
    rcases guarded.cases_run with ⟨_, admitted, wrote⟩ | aside
    · rcases wrote.creates with uncreated | same | ⟨absent, eventData, request⟩
      · exact .of_none uncreated
      · cases boot with
        | read => exact .of_none same
        | created request absent =>
          simp only [ApplyEventContext.skipRunValidation, request, Bool.false_eq_true, if_false] at absent
          exact fun _ => ⟨absent, by rw [request]; rfl⟩
      · cases boot with
        | read => exact fun _ => ⟨absent, by rw [request]; rfl⟩
        | created started => cases started.symm.trans request
    · exact .of_none aside.uncreated

/-- The event of a successful answer is stored, and it carries a page only where a
`run_started` preloads the log. -/
theorem applyEvent_reports (run : applyEvent W true ctx txn = .ok (.ok success, txn')) :
    txn'.Reports W ctx success := by
  cases applyEvent_applied run with
  | cancelledAgain request =>
    exact .of_other (by simp only [ApplyEventContext.isRunStarted, request]) rfl ApplyEventContext.stored_of_put
  | guarded boot guarded =>
    rcases guarded.cases_run with ⟨_, -, wrote⟩ | aside
    · exact wrote.reports
    · exact .of_other aside.other aside.unpaged aside.stored

end Event

end CelldWorld
