import CelldWorld.Spec.Guards

namespace CelldWorld

/-- From one transaction state to a later one, a request commits journaled events only,
and marks no hook as claimed by force. -/
structure EventTxn.Journals (W : WorldContract) (runId : String) (now : Nat) (txn txn' : EventTxn) :
    Prop where
  sequence : txn'.store.eventSequence = txn.store.eventSequence
  unforced : txn'.store.hookForced = txn.store.hookForced
  events : ∃ events, CelldWorld.Journals W runId now txn.commit events txn'.commit

theorem EventTxn.Journals.refl {W : WorldContract} {runId : String} {now : Nat} {txn : EventTxn} :
    txn.Journals W runId now txn :=
  ⟨rfl, rfl, [], .start⟩

theorem EventTxn.Journals.trans {W : WorldContract} {runId : String} {now : Nat}
    {first middle last : EventTxn} (head : first.Journals W runId now middle)
    (tail : middle.Journals W runId now last) : first.Journals W runId now last := by
  obtain ⟨sequence, unforced, events, journals⟩ := head
  obtain ⟨sequence', unforced', events', journals'⟩ := tail
  exact ⟨sequence'.trans sequence, unforced'.trans unforced, events ++ events', journals.trans journals'⟩

/-- The event that a terminal run event journals ends the run as the request says. -/
theorem CreateEvent.finish_record {W : WorldContract} {data : CreateEvent} {status : RunStatus}
    {output : Option Value} {error : Option StructuredError}
    (finishes : data.finish = some (status, output, error)) :
    data.needsActiveRun W = true ∧ ∀ event : Event, event.data = data.record →
      event.endsAs = some status ∧ event.result = (output, error) := by
  cases data <;> cases finishes <;> exact ⟨rfl, fun event recorded => by
    simp [Event.endsAs, Event.result, recorded, CreateEvent.record]⟩

/-- The event that a step update journals updates the step as the request does. -/
theorem CreateEvent.stepUpdate_record {W : WorldContract} {data : CreateEvent} {stamp : Stamp} {id : String}
    {update : Step → Step} (updates : data.stepUpdate stamp = some (id, update)) :
    data.stepTarget W = some (id, false) ∧ (∀ eventData, data.record ≠ .stepStarted id eventData) ∧
      ∀ event : Event, event.data = data.record → event.stamp = stamp → event.stepUpdate = some (id, update) := by
  cases data <;> cases updates <;> exact ⟨rfl, nofun, fun event recorded stamped => by
    simp [Event.stepUpdate, recorded, stamped, CreateEvent.record]⟩

namespace ApplyEventContext
variable {W : WorldContract} {ctx : ApplyEventContext} {txn txn' : EventTxn} {success : ApplyEventSuccess}
  {currentRun : Option WorkflowRun} {bootstrapped : Option RunCreatedInfo} {validatedStep : Option Step}

/-- One built event, journaled against the committed store, is one journal step. -/
theorem Built.journals {data : EventData} {event : Event} (built : ctx.Built W txn data event)
    (kept : txn'.store.eventSequence = txn.store.eventSequence ∧ txn'.store.hookForced = txn.store.hookForced)
    (journal : Journal W txn.commit event txn'.commit) : txn.Journals W ctx.runId ctx.now txn' :=
  ⟨kept.1, kept.2, [event], .single built.next journal⟩

theorem Bootstrapped.journals {handed : Option WorkflowRun} {info : Option RunCreatedInfo}
    (current : ctx.skipRunValidation = false → currentRun = txn.store.run)
    (boot : ctx.Bootstrapped W currentRun txn handed info txn') : txn.Journals W ctx.runId ctx.now txn' := by
  cases boot with
  | read => exact .refl
  | created request absent valid built =>
    have missing : txn.store.run = none := (current (by simp only [skipRunValidation, request])).symm.trans absent
    have journal : Journal W txn.commit _ _ := .runCreated built.recorded missing
    rw [built.stamp] at journal
    exact built.journals ⟨rfl, rfl⟩ journal

/-- An event that reads the run, other than `run_started`, has found it. -/
theorem Admitted.stored (admitted : ctx.Admitted W currentRun validatedStep txn)
    (reads : ctx.skipRunValidation = false) (other : ctx.isRunStarted = false) :
    ∃ run, txn.store.run = some run ∧
      (ctx.data.data.needsActiveRun W = true → isTerminalWorkflowRunStatus run.status = false) := by
  obtain ⟨run, same⟩ := Option.ne_none_iff_exists'.mp (admitted.found reads other)
  exact ⟨run, (admitted.current reads).symm.trans same, fun needs => admitted.active needs run same⟩

theorem WroteRun.journals (entered : ctx.Entered W currentRun txn)
    (wrote : ctx.WroteRun W currentRun bootstrapped txn success txn') :
    txn.Journals W ctx.runId ctx.now txn' := by
  cases wrote with
  | runExists => exact .refl
  | runCreated request absent valid built =>
    have journal : Journal W txn.commit _ _ := .runCreated (built.recorded.trans (by rw [request]; rfl)) absent
    rw [built.stamp] at journal
    exact built.journals ⟨rfl, rfl⟩ journal
  | runRunning => exact .refl
  | @runStarted eventData run event _ request current waits valid built stores =>
    subst stores
    have stored := (entered.current (by simp only [skipRunValidation, request])).symm.trans current
    have fresh : run.status = .pending := by
      have active := entered.active (by rw [request]; rfl) run current
      cases status : run.status <;> simp_all [isTerminalWorkflowRunStatus]
    have journal : Journal W txn.commit _ _ :=
      .runStarted (built.recorded.trans (by rw [request]; rfl)) stored fresh
    rw [built.stamp] at journal
    exact built.journals ⟨rfl, rfl⟩ journal
  | @runFinished status output error run event request current valid built =>
    obtain ⟨needs, recorded⟩ := CreateEvent.finish_record request
    obtain ⟨ends, result⟩ := recorded event built.recorded
    have reads : ctx.skipRunValidation = false := by
      cases data : ctx.data.data <;> simp_all [CreateEvent.finish, skipRunValidation]
    have journal : Journal W txn.commit event _ :=
      .runFinished ends ((entered.current reads).symm.trans current) (entered.active needs run current)
    rw [built.stamp, result] at journal
    exact built.journals ⟨rfl, rfl⟩ journal
  | @attrSet _ _ run event request current unmarked valid built =>
    have stored := (entered.current (by simp only [skipRunValidation, request])).symm.trans current
    have journal : Journal W txn.commit event _ := .attrSet (built.recorded.trans (by rw [request]; rfl)) stored
      (entered.active (by rw [request]; rfl) run current) unmarked
    rw [built.stamp] at journal
    exact built.journals ⟨rfl, rfl⟩ journal

/-- A step that is started lazily is journaled twice: its creation, then its start. -/
theorem WroteStep.journals (admitted : ctx.Admitted W currentRun validatedStep txn)
    (wrote : ctx.WroteStep W validatedStep txn success txn') : txn.Journals W ctx.runId ctx.now txn' := by
  cases wrote with
  | created request absent built =>
    obtain ⟨run, stored, active⟩ := admitted.stored (by simp only [skipRunValidation, request])
      (by simp only [isRunStarted, request])
    have journal : Journal W txn.commit _ _ := .stepCreated (built.recorded.trans (by rw [request]; rfl)) stored
      (active (by rw [request]; rfl)) absent
    rw [built.stamp] at journal
    exact built.journals ⟨rfl, rfl⟩ journal
  | @started id eventData step event request validated due built =>
    obtain ⟨stored, unfinished, -⟩ := stepGuard_ok (by rw [request]; rfl) admitted.step
    refine built.journals ⟨rfl, rfl⟩
      (.stepUpdated ?_ (stored.symm.trans validated) (unfinished step validated) ?_)
    · simp only [Event.stepUpdate, built.recorded, request, CreateEvent.record, built.stamp]
    · exact fun _ _ => built.next.createdAt ▸ due
  | @startedLazily id eventData creation created event lazy request missing creates stores built =>
    obtain ⟨absent, -, lazily⟩ := stepGuard_ok (by rw [request]; rfl) admitted.step
    obtain ⟨run, stored, active⟩ := admitted.stored (by simp only [skipRunValidation, request])
      (by simp only [isRunStarted, request])
    have journal : Journal W txn.commit created _ := .stepCreated creates.recorded stored
      (active (by rw [request]; exact lazily missing)) (absent.symm.trans missing)
    rw [creates.stamp] at journal
    have made : txn.Journals W ctx.runId ctx.now lazy := by
      subst stores
      exact creates.journals ⟨rfl, rfl⟩ journal
    have held : lazy.store.steps[id]? =
        some ((ctx.stamp W).createdStep id creation.stepName creation.input) := by
      subst stores
      exact Std.ExtTreeMap.getElem?_insert_self
    refine made.trans (built.journals ⟨rfl, rfl⟩ (.stepUpdated ?_ held rfl ?_))
    · simp only [Event.stepUpdate, built.recorded, request, CreateEvent.record, built.stamp]
    · exact fun _ _ _ delayed => by cases delayed
  | @updated id update step event request validated built =>
    obtain ⟨target, other, updates⟩ := CreateEvent.stepUpdate_record request
    obtain ⟨stored, unfinished, -⟩ := stepGuard_ok target admitted.step
    refine built.journals ⟨rfl, rfl⟩ (.stepUpdated (updates event built.recorded built.stamp)
      (stored.symm.trans validated) (unfinished step validated) ?_)
    exact fun eventData started => absurd (built.recorded.symm.trans started) (other eventData)

theorem WroteHook.journals (admitted : ctx.Admitted W currentRun validatedStep txn)
    (wrote : ctx.WroteHook W txn success txn') : txn.Journals W ctx.runId ctx.now txn' := by
  have stored {id : String} {eventData : HookCreatedData} (request : ctx.data.data = .hookCreated id eventData) :
      ∃ run, txn.store.run = some run ∧ isTerminalWorkflowRunStatus run.status = false := by
    obtain ⟨run, stored, active⟩ := admitted.stored (by simp only [skipRunValidation, request])
      (by simp only [isRunStarted, request])
    exact ⟨run, stored, active (by rw [request]; rfl)⟩
  cases wrote with
  | conflict request built =>
    obtain ⟨run, stored, active⟩ := stored request
    exact built.journals ⟨rfl, rfl⟩ (.hookConflict built.recorded stored active)
  | replayed => exact .refl
  | created request fresh built =>
    obtain ⟨run, stored, active⟩ := stored request
    have journal : Journal W txn.commit _ _ := .hookCreated built.recorded stored active fresh
    rw [built.stamp] at journal
    exact built.journals ⟨rfl, rfl⟩ journal
  | @received id payload event resumes request claims built =>
    obtain ⟨run, stored, -⟩ := admitted.stored (by simp only [skipRunValidation, request])
      (by simp only [isRunStarted, request])
    have reads : currentRun = some run :=
      (admitted.current (by simp only [skipRunValidation, request])).trans stored
    have opened (nonempty : id ≠ "") : (∃ hook, txn.store.hooks[id]? = some hook) ∧
        isTerminalWorkflowRunStatus run.status = false := by
      obtain ⟨held, active⟩ := hookGuard_received (request ▸ admitted.hook) nonempty
      exact ⟨held, active run reads⟩
    have carried : event.resumeId = ctx.resumeId := by
      rw [built.resumeId, request]
      rfl
    refine built.journals ⟨rfl, rfl⟩
      (.hookReceived (built.recorded.trans (by rw [request]; rfl)) stored opened ?_)
    rw [carried]
    rcases claims with unclaimed | ⟨resumeId, resume, inserted⟩
    · exact .inl unclaimed
    · exact .inr ⟨resumeId, _, resume, hookResumeGuard_unclaimed request admitted.resume resume, inserted⟩
  | disposed request held built =>
    obtain ⟨run, stored, -⟩ := admitted.stored (by simp only [skipRunValidation, request])
      (by simp only [isRunStarted, request])
    exact built.journals ⟨rfl, rfl⟩ (.hookDisposed (built.recorded.trans (by rw [request]; rfl)) stored held)

theorem WroteWait.journals (admitted : ctx.Admitted W currentRun validatedStep txn)
    (wrote : ctx.WroteWait W txn success txn') : txn.Journals W ctx.runId ctx.now txn' := by
  cases wrote with
  | created request absent built =>
    obtain ⟨run, stored, active⟩ := admitted.stored (by simp only [skipRunValidation, request])
      (by simp only [isRunStarted, request])
    have journal : Journal W txn.commit _ _ := .waitCreated (built.recorded.trans (by rw [request]; rfl)) stored
      (active (by rw [request]; rfl)) absent
    rw [built.stamp] at journal
    exact built.journals ⟨rfl, rfl⟩ journal
  | @completed id resumeAt wait event request held waiting built =>
    obtain ⟨run, stored, -⟩ := admitted.stored (by simp only [skipRunValidation, request])
      (by simp only [isRunStarted, request])
    have waiting : wait.status = .waiting := by
      cases status : wait.status with
      | waiting => rfl
      | completed => exact absurd status waiting
    have journal : Journal W txn.commit event _ :=
      .waitCompleted (built.recorded.trans (by rw [request]; rfl)) stored held waiting
    rw [built.stamp] at journal
    exact built.journals ⟨rfl, rfl⟩ journal

theorem Guarded.journals (guarded : ctx.Guarded W currentRun bootstrapped txn success txn') :
    txn.Journals W ctx.runId ctx.now txn' := by
  cases guarded with
  | resumed => exact .refl
  | released => exact .refl
  | wrote admitted wrote =>
    cases wrote with
    | run wrote => exact wrote.journals admitted.toEntered
    | step wrote => exact wrote.journals admitted
    | hook wrote => exact wrote.journals admitted
    | wait wrote => exact wrote.journals admitted

end ApplyEventContext

/-- A successful event application commits journaled events and nothing else. -/
theorem applyEvent_journals {W : WorldContract} {ctx : ApplyEventContext} {txn txn' : EventTxn}
    {success : ApplyEventSuccess} (run : applyEvent W true ctx txn = .ok (.ok success, txn')) :
    txn.Journals W ctx.runId ctx.now txn' := by
  cases applyEvent_applied run with
  | cancelledAgain request stored cancelled built =>
    exact built.journals ⟨rfl, rfl⟩ (.runCancelledAgain built.recorded stored cancelled)
  | guarded boot guarded =>
    have first := boot.journals fun reads => by rw [reads]; rfl
    exact first.trans guarded.journals

/-- A forced disposal of an active run's hook is journaled; a finished or absent
run only loses the hook and keeps the force-claim marker. -/
theorem applyForcedHookDisposal_journals {W : WorldContract} {runId hookId token : String} {now : Nat}
    {claimedBy : HookTokenOwner} {txn txn' : EventTxn} {journaled : Bool}
    (run : applyForcedHookDisposal W runId now hookId token claimedBy txn = .ok (journaled, txn')) :
    (txn'.store.eventSequence = txn.store.eventSequence ∧
        txn'.store.run = txn.store.run ∧ ∃ events, Journals W runId now txn.commit events txn'.commit) ∨
      ∃ hook, txn.store.hooks[hookId]? = some hook ∧ hook.token = token ∧
        txn.store.hookForced[hookId]? = none ∧
        (∀ run, txn.store.run = some run → isTerminalWorkflowRunStatus run.status = true) ∧
        txn' = (txn.releaseHook hookId hook).putHookForced hookId ⟨token, claimedBy⟩ := by
  unfold applyForcedHookDisposal at run
  split at run
  · cases run
    exact .inl ⟨rfl, rfl, [], .start⟩
  rename_i unforced
  have unforced : txn.store.hookForced[hookId]? = none := by simpa using unforced
  split at run
  · cases run
    exact .inl ⟨rfl, rfl, [], .start⟩
  rename_i hook stored
  split at run
  · cases run
    exact .inl ⟨rfl, rfl, [], .start⟩
  rename_i sameToken
  have sameToken : hook.token = token := by simpa using sameToken
  simp only at run
  split at run
  · rename_i absent
    have absent : txn.store.run = none := absent
    cases run
    exact .inr ⟨hook, stored, sameToken, unforced, fun run holds => by simp [absent] at holds, rfl⟩
  rename_i current holds
  split at run
  · rename_i ended
    cases run
    exact .inr ⟨hook, stored, sameToken, unforced, fun run same =>
      Option.some.inj (holds.symm.trans same) ▸ ended, rfl⟩
  · rename_i active
    obtain ⟨event, parsed, run⟩ := bind_ok.mp run
    obtain ⟨-, rfl⟩ := parseWith_ok.mp parsed
    cases run
    refine .inl ⟨rfl, rfl, [_], .single ?_
      (Journal.hookForced rfl holds (by simpa using active) stored sameToken unforced)⟩
    exact ⟨rfl, rfl, rfl⟩

end CelldWorld
