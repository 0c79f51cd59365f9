import CelldWorld.GrammarInvariant

namespace CelldWorld

open EventData

variable {W : WorldContract} {runId : String} {now : Nat} {before after : RunStore} {event : Event}
variable {history : List Event}

/-- An event about no wait. -/
theorem WaitState.frame (state : WaitState before history) (waits : after.waits = before.waits)
    (created : event.data.createdWait = none) (completed : event.data.completedWait = none)
    (terminal : before.isTerminal = true → after.isTerminal = true) :
    WaitState after (history ++ [event]) where
  created id wait stored := occurs_snoc.mpr (.inl (state.created id wait (waits ▸ stored)))
  kept id occurs := by
    rw [waits]
    exact (state.kept id (by simpa [created] using occurs)).imp_right terminal
  ordered id occurs := occurs_snoc.mpr (.inl (state.ordered id (by simpa [completed] using occurs)))
  completed id wait occurs stored :=
    state.completed id wait (by simpa [completed] using occurs) (waits ▸ stored)

theorem WaitState.create {id : String} {wait : Wait} (state : WaitState before history)
    (waits : after.waits = before.waits.insert id wait) (absent : before.waits[id]? = none)
    (active : before.isTerminal = false) (created : event.data.createdWait = some id) :
    WaitState after (history ++ [event]) := by
  have completed : event.data.completedWait = none := by
    cases data : event.data <;> simp [data, createdWait, completedWait] at created ⊢
  have fresh : ¬ Occurs createdWait id history := by
    intro occurs
    rcases state.kept id occurs with ⟨wait, stored⟩ | terminal
    · rw [absent] at stored
      cases stored
    · rw [active] at terminal
      cases terminal
  refine ⟨fun other found held => ?_, fun other occurs => ?_, fun other occurs => ?_,
    fun other found occurs held => ?_⟩
  · rw [occurs_snoc, created]
    by_cases same : id = other
    · exact .inr (by rw [same])
    · exact .inl (state.created other found (by simpa [waits, Std.ExtTreeMap.getElem?_insert, same] using held))
  · rw [waits, Std.ExtTreeMap.getElem?_insert]
    by_cases same : id = other
    · exact .inl ⟨wait, by simp [same]⟩
    · rcases state.kept other (by simpa [created, same] using occurs) with stored | terminal
      · exact .inl (by simpa [same] using stored)
      · rw [active] at terminal
        cases terminal
  · exact occurs_snoc.mpr (.inl (state.ordered other (by simpa [completed] using occurs)))
  · have occurs : Occurs completedWait other history := by simpa [completed] using occurs
    have different : id ≠ other := by
      rintro rfl
      exact fresh (state.ordered id occurs)
    exact state.completed other found occurs
      (by simpa [waits, Std.ExtTreeMap.getElem?_insert, different] using held)

theorem WaitState.complete {id : String} {wait wait' : Wait} (state : WaitState before history)
    (waits : after.waits = before.waits.insert id wait') (stored : before.waits[id]? = some wait)
    (completed : event.data.completedWait = some id) (done : wait'.status = .completed)
    (terminal : before.isTerminal = true → after.isTerminal = true) :
    WaitState after (history ++ [event]) := by
  have created : event.data.createdWait = none := by
    cases data : event.data <;> simp [data, createdWait, completedWait] at completed ⊢
  have known := state.created id wait stored
  refine ⟨fun other found held => ?_, fun other occurs => ?_, fun other occurs => ?_,
    fun other found occurs held => ?_⟩
  · rw [occurs_snoc]
    by_cases same : id = other
    · exact .inl (same ▸ known)
    · exact .inl (state.created other found (by simpa [waits, Std.ExtTreeMap.getElem?_insert, same] using held))
  · rw [waits, Std.ExtTreeMap.getElem?_insert]
    by_cases same : id = other
    · exact .inl ⟨wait', by simp [same]⟩
    · rcases state.kept other (by simpa [created] using occurs) with stored | ended
      · exact .inl (by simpa [same] using stored)
      · exact .inr (terminal ended)
  · rw [occurs_snoc]
    rcases occurs_snoc.mp occurs with old | new
    · exact .inl (state.ordered other old)
    · obtain rfl := Option.some.inj (completed.symm.trans new)
      exact .inl known
  · by_cases same : id = other
    · subst same
      have : some wait' = some found := by simpa [waits] using held
      exact Option.some.inj this ▸ done
    · exact state.completed other found (by simpa [completed, same] using occurs)
        (by simpa [waits, Std.ExtTreeMap.getElem?_insert, same] using held)

theorem Journal.waitState (journal : Journal W before event after) (state : WaitState before history) :
    WaitState after (history ++ [event]) := by
  have terminal := journal.isTerminal
  cases journal with
  | waitCreated data current active absent =>
    exact state.create rfl absent (by simp [RunStore.isTerminal, current, active]) (by rw [data]; rfl)
  | waitCompleted data current stored waiting =>
    exact state.complete rfl stored (by rw [data]; rfl) rfl terminal
  | runFinished ends =>
    refine state.frame rfl ?_ ?_ terminal <;> cases data : event.data <;>
      simp [data, Event.endsAs, createdWait, completedWait] at ends ⊢
  | stepUpdated updates =>
    refine state.frame rfl ?_ ?_ terminal <;> cases data : event.data <;>
      simp [data, Event.stepUpdate, createdWait, completedWait] at updates ⊢
  | runCreated data | runStarted data | runCancelledAgain data | attrSet data | stepCreated data
  | hookConflict data | hookCreated data | hookReceived data | hookDisposed data | hookForced data =>
    exact state.frame rfl (by rw [data]; rfl) (by rw [data]; rfl) terminal

/-- The marker of an `attr_set` is its correlation ID, unless that is empty. -/
theorem attributeMarker_eq_some {correlationId : Option String} {eventData : AttrSetData} {id : String} :
    ApplyEventContext.attributeMarker correlationId eventData = some id ↔
      workflowAttribute (.attrSet correlationId eventData) = some id ∧ id ≠ "" := by
  unfold ApplyEventContext.attributeMarker workflowAttribute
  simp only
  split
  · exact truthy_eq_some
  · simp

theorem Journal.attributeState (journal : Journal W before event after)
    (state : AttributeState before history) : AttributeState after (history ++ [event]) := by
  cases journal with
  | @attrSet run correlationId eventData data current active unmarked =>
    intro id nonempty occurs
    simp only [RunStore.append, RunStore.markAttribute, RunStore.putRun]
    rcases occurs_snoc.mp occurs with old | new
    · obtain ⟨eventId, marker⟩ := state id nonempty old
      cases ApplyEventContext.attributeMarker correlationId eventData with
      | none => exact ⟨eventId, marker⟩
      | some key =>
        simp only [Std.ExtTreeMap.getElem?_insert]
        split
        · exact ⟨event.eventId, rfl⟩
        · exact ⟨eventId, marker⟩
    · rw [data] at new
      rw [attributeMarker_eq_some.mpr ⟨new, nonempty⟩]
      exact ⟨event.eventId, Std.ExtTreeMap.getElem?_insert_self⟩
  | runFinished ends =>
    refine fun id nonempty occurs => state id nonempty ?_
    cases data : event.data <;> simp [data, Event.endsAs] at ends <;>
      simpa [data, workflowAttribute] using occurs
  | stepUpdated updates =>
    refine fun id nonempty occurs => state id nonempty ?_
    cases data : event.data <;> simp [data, Event.stepUpdate] at updates <;>
      simpa [data, workflowAttribute] using occurs
  | runCreated data | runStarted data | runCancelledAgain data | stepCreated data
  | hookConflict data | hookCreated data | hookReceived data | hookDisposed data | hookForced data
  | waitCreated data | waitCompleted data =>
    exact fun id nonempty occurs => state id nonempty (by simpa [data, workflowAttribute] using occurs)

/-- An event about no hook's creation or disposal. -/
theorem HookState.frame (state : HookState before history) (hooks : after.hooks = before.hooks)
    (hookEvent : after.hookEvent = before.hookEvent) (created : event.data.createdHook = none)
    (disposed : event.data.disposedHook = none) : HookState after (history ++ [event]) where
  marked id occurs := by
    rw [hookEvent]
    exact state.marked id (by simpa [created] using occurs)
  ordered id occurs := occurs_snoc.mpr (.inl (state.ordered id (by simpa [disposed] using occurs)))
  live id hook stored := by
    simpa [created, disposed] using state.live id hook (hooks ▸ stored)

theorem HookState.dispose {id : String} {hook : Hook} (state : HookState before history)
    (held : before.hooks[id]? = some hook) (hooks : after.hooks = before.hooks.erase id)
    (hookEvent : after.hookEvent = before.hookEvent)
    (disposed : event.data.disposedHook = some id) : HookState after (history ++ [event]) := by
  have created : event.data.createdHook = none := by
    cases data : event.data <;> simp [data, createdHook, disposedHook] at disposed ⊢
  refine ⟨fun other occurs => ?_, fun other occurs => ?_, fun other hook stored => ?_⟩
  · rw [hookEvent]
    exact state.marked other (by simpa [created] using occurs)
  · rw [occurs_snoc]
    rcases occurs_snoc.mp occurs with old | new
    · exact .inl (state.ordered other old)
    · obtain rfl := Option.some.inj (disposed.symm.trans new)
      exact .inl (state.live id _ held).1
  · rw [hooks, Std.ExtTreeMap.getElem?_erase] at stored
    split at stored
    · cases stored
    · rename_i different
      have different : id ≠ other := by simpa using different
      simpa [created, disposed, different] using state.live other hook stored

theorem HookState.create {id eventId : String} {hook : Hook} (state : HookState before history)
    (hooks : after.hooks = before.hooks.insert id hook)
    (hookEvent : after.hookEvent = before.hookEvent.insert id eventId)
    (fresh : before.hookEvent[id]? = none) (created : event.data.createdHook = some id) :
    HookState after (history ++ [event]) := by
  have disposed : event.data.disposedHook = none := by
    cases data : event.data <;> simp [data, createdHook, disposedHook] at created ⊢
  refine ⟨fun other occurs => ?_, fun other occurs => ?_, fun other found stored => ?_⟩
  · rw [hookEvent, Std.ExtTreeMap.getElem?_insert]
    by_cases same : id = other
    · exact ⟨eventId, by simp [same]⟩
    · obtain ⟨marker, held⟩ := state.marked other (by simpa [created, same] using occurs)
      exact ⟨marker, by simpa [same] using held⟩
  · exact occurs_snoc.mpr (.inl (state.ordered other (by simpa [disposed] using occurs)))
  · by_cases same : id = other
    · subst same
      refine ⟨occurs_snoc.mpr (.inr created), ?_⟩
      simp only [occurs_snoc, disposed, reduceCtorEq, or_false]
      intro occurs
      obtain ⟨marker, held⟩ := state.marked id (state.ordered id occurs)
      rw [fresh] at held
      cases held
    · have live := state.live other found
        (by simpa [hooks, Std.ExtTreeMap.getElem?_insert, same] using stored)
      simpa [created, disposed, same] using live

theorem Journal.hookState (journal : Journal W before event after) (state : HookState before history) :
    HookState after (history ++ [event]) := by
  cases journal with
  | hookCreated data current active fresh =>
    exact state.create rfl rfl fresh (by rw [data]; rfl)
  | hookDisposed data current stored | hookForced data current active stored =>
    exact state.dispose stored rfl rfl (by rw [data]; rfl)
  | runFinished ends =>
    refine state.frame rfl rfl ?_ ?_ <;> cases data : event.data <;>
      simp [data, Event.endsAs, createdHook, disposedHook] at ends ⊢
  | stepUpdated updates =>
    refine state.frame rfl rfl ?_ ?_ <;> cases data : event.data <;>
      simp [data, Event.stepUpdate, createdHook, disposedHook] at updates ⊢
  | runCreated data | runStarted data | runCancelledAgain data | attrSet data | stepCreated data
  | hookConflict data | hookReceived data | waitCreated data | waitCompleted data =>
    exact state.frame rfl rfl (by rw [data]; rfl) (by rw [data]; rfl)

end CelldWorld
