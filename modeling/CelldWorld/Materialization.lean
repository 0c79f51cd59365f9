import CelldWorld.Projection

namespace CelldWorld

section Maps
variable {ν : Type} {index : CreationMap String} {entities : KeyMap ν} {createdAt : ν → Nat} {id : String}

/-- A new entity and its index entry. -/
theorem IndexedBy.insert (indexed : IndexedBy index entities createdAt) (absent : entities[id]? = none)
    (entity : ν) :
    IndexedBy (index.insert (createdAt entity, id) id) (entities.insert id entity) createdAt := by
  intro time key other
  rw [Std.ExtTreeMap.getElem?_insert, Std.ExtTreeMap.getElem?_insert]
  simp only [Std.LawfulEqCmp.compare_eq_iff_eq, Prod.mk.injEq]
  by_cases same : id = other
  · subst same
    by_cases at_key : createdAt entity = time ∧ id = key
    · obtain ⟨rfl, rfl⟩ := at_key
      simp
    · rw [if_neg at_key, indexed time key id, absent]
      simp only [if_true, Option.some.injEq, exists_eq_left', reduceCtorEq, false_and, exists_false,
        and_false, false_iff, not_and]
      exact fun same_key same_time => at_key ⟨same_time, same_key.symm⟩
  · simp only [same, if_false]
    by_cases at_key : createdAt entity = time ∧ id = key
    · obtain ⟨rfl, rfl⟩ := at_key
      simp [same]
    · rw [if_neg at_key]
      exact indexed time key other

/-- An update that keeps the creation time keeps the index. -/
theorem IndexedBy.update (indexed : IndexedBy index entities createdAt) {old : ν}
    (stored : entities[id]? = some old) {entity : ν} (same : createdAt entity = createdAt old) :
    IndexedBy index (entities.insert id entity) createdAt := by
  intro time key other
  rw [indexed time key other, Std.ExtTreeMap.getElem?_insert]
  by_cases at_id : id = other
  · subst at_id
    simp [stored, same]
  · simp [at_id]

/-- Deleting an entity with the index key it was created with. -/
theorem IndexedBy.erase (indexed : IndexedBy index entities createdAt) {entity : ν}
    (stored : entities[id]? = some entity) :
    IndexedBy (index.erase (createdAt entity, id)) (entities.erase id) createdAt := by
  intro time key other
  rw [Std.ExtTreeMap.getElem?_erase, Std.ExtTreeMap.getElem?_erase]
  simp only [Std.LawfulEqCmp.compare_eq_iff_eq, Prod.mk.injEq]
  by_cases at_id : id = other
  · subst at_id
    simp only [if_true, reduceCtorEq, false_and, exists_false, and_false, iff_false]
    split
    · simp
    · rename_i different
      rw [indexed time key id]
      rintro ⟨rfl, found, holds, rfl⟩
      obtain rfl := Option.some.inj (stored.symm.trans holds)
      exact different ⟨rfl, rfl⟩
  · simp only [at_id, if_false]
    split
    · rename_i at_key
      obtain ⟨rfl, rfl⟩ := at_key
      simp [at_id]
    · exact indexed time key other

end Maps

section Fold
variable {W : WorldContract} {before after : RunStore} {event : Event} {state : Projection}

/-- A terminal run event finishes an active run. -/
theorem Projection.apply_ends {run : RunView} {status : RunStatus} (ends : event.endsAs = some status)
    (current : state.run = some run) (active : isTerminalWorkflowRunStatus run.status = false) :
    state.apply W event = state.finishRun status event.result.1 event.result.2 event.createdAt := by
  have notCancelled : run.status ≠ .cancelled := by
    intro cancelled
    rw [cancelled] at active
    cases active
  cases data : event.data <;> simp only [Event.endsAs, data, reduceCtorEq, Option.some.injEq] at ends <;>
    subst ends <;> simp [Projection.apply, Event.result, data, current, notCancelled]

/-- A step event changes the view of its step as it changes the step. -/
theorem Projection.apply_stepUpdate (state : Projection) {id : String} {update : Step → Step}
    (updates : event.stepUpdate = some (id, update)) :
    ∃ change, state.apply W event = state.updateStep id change ∧
      ∀ step, (update step).view = change step.view ∧ (update step).createdAt = step.createdAt := by
  cases data : event.data <;> simp only [Event.stepUpdate, data, reduceCtorEq, Option.some.injEq,
    Prod.mk.injEq] at updates <;> obtain ⟨rfl, rfl⟩ := updates <;>
    simp only [Projection.apply, data] <;> exact ⟨_, rfl, fun _ => ⟨rfl, rfl⟩⟩

/-- Reading one event follows the journaling of it, for the run and its steps. -/
theorem Journal.runProjected (journal : Journal W before event after)
    (projected : RunProjected before state) : RunProjected after (state.apply W event) := by
  have read {run : WorkflowRun} (current : before.run = some run) : state.run = some run.view := by
    rw [← projected.run, current, Option.map_some]
  cases journal with
  | runCreated data absent =>
    simp only [Projection.apply, data]
    exact ⟨rfl, projected.steps, projected.stepCreated⟩
  | runStarted data current fresh =>
    simp only [Projection.apply, data, read current]
    exact ⟨rfl, projected.steps, projected.stepCreated⟩
  | runFinished ends current active =>
    rw [Projection.apply_ends ends (read current) active, Projection.finishRun, read current]
    exact ⟨rfl, projected.steps, projected.stepCreated⟩
  | runCancelledAgain data current cancelled =>
    simp only [Projection.apply, data, read current, WorkflowRun.view, cancelled, Option.any_some,
      decide_true, if_true]
    exact ⟨projected.run, projected.steps, projected.stepCreated⟩
  | attrSet data current active unmarked =>
    simp only [Projection.apply, data, read current]
    exact ⟨rfl, projected.steps, projected.stepCreated⟩
  | @stepCreated run id eventData data current active absent =>
    simp only [Projection.apply, data]
    refine ⟨projected.run, fun other => ?_, projected.stepCreated.insert absent
      (event.stamp.createdStep id eventData.stepName eventData.input)⟩
    simp only [RunStore.append, RunStore.putStepCreated, RunStore.putStep, Std.ExtTreeMap.getElem?_insert,
      Std.LawfulEqCmp.compare_eq_iff_eq, Function.update_apply]
    by_cases same : id = other
    · subst same
      simp [Stamp.createdStep, Step.view]
    · simpa [same, Ne.symm same, eq_comm] using projected.steps other
  | @stepUpdated id update step updates stored unfinished due =>
    obtain ⟨change, reads, commutes⟩ := Projection.apply_stepUpdate state updates
    rw [reads]
    refine ⟨projected.run, fun other => ?_, projected.stepCreated.update stored (commutes step).2⟩
    simp only [RunStore.append, RunStore.putStep, Std.ExtTreeMap.getElem?_insert,
      Std.LawfulEqCmp.compare_eq_iff_eq, Projection.updateStep, Function.update_apply]
    by_cases same : id = other
    · subst same
      simp [← projected.steps id, stored, (commutes step).1]
    · simpa [same, Ne.symm same, eq_comm] using projected.steps other
  | hookConflict data | hookCreated data | hookReceived data | hookDisposed data | hookForced data
  | waitCreated data | waitCompleted data =>
    simp only [Projection.apply, data]
    exact ⟨projected.run, projected.steps, projected.stepCreated⟩

theorem EntitiesProjected.congr {state' : Projection} (projected : EntitiesProjected before state)
    (waits : after.waits = before.waits) (hooks : after.hooks = before.hooks)
    (hookCreated : after.hookCreated = before.hookCreated) (sameWaits : state'.waits = state.waits)
    (sameHooks : state'.hooks = state.hooks) : EntitiesProjected after state' where
  waits := by rw [waits, sameWaits]; exact projected.waits
  hooks := by rw [hooks, sameHooks]; exact projected.hooks
  hookIds := by rw [hooks]; exact projected.hookIds
  hookCreated := by rw [hooks, hookCreated]; exact projected.hookCreated

/-- A wait written under its ID. -/
theorem EntitiesProjected.putWait {id : String} {wait : Wait} (projected : EntitiesProjected before state) :
    EntitiesProjected ((before.putWait id wait).append event)
      { state with waits := Function.update state.waits id (some wait.view) } where
  waits other := by
    simp only [RunStore.append, RunStore.putWait, Std.ExtTreeMap.getElem?_insert,
      Std.LawfulEqCmp.compare_eq_iff_eq, Function.update_apply]
    by_cases same : id = other
    · subst same
      simp
    · simpa [same, Ne.symm same, eq_comm] using projected.waits other
  hooks := projected.hooks
  hookIds := projected.hookIds
  hookCreated := projected.hookCreated

/-- A hook deleted with its creation index entry. -/
theorem EntitiesProjected.releaseHook {id : String} {hook : Hook}
    (projected : EntitiesProjected before state) (stored : before.hooks[id]? = some hook) :
    EntitiesProjected (before.releaseHook id hook)
      { state with hooks := Function.update state.hooks id none } where
  waits := projected.waits
  hooks other := by
    simp only [RunStore.releaseHook, Std.ExtTreeMap.getElem?_erase,
      Std.LawfulEqCmp.compare_eq_iff_eq, Function.update_apply]
    by_cases same : id = other
    · subst same
      simp
    · simpa [same, Ne.symm same, eq_comm] using projected.hooks other
  hookIds other found held := by
    simp only [RunStore.releaseHook, Std.ExtTreeMap.getElem?_erase] at held
    split at held
    · cases held
    · exact projected.hookIds other found held
  hookCreated := by
    have key := projected.hookIds id hook stored
    unfold RunStore.releaseHook
    rw [key]
    exact projected.hookCreated.erase stored

/-- Reading one event follows the journaling of it, for the waits and the live hooks. -/
theorem Journal.entitiesProjected (journal : Journal W before event after) (marked : HooksMarked before)
    (projected : EntitiesProjected before state) : EntitiesProjected after (state.apply W event) := by
  cases journal with
  | runCreated data | runStarted data | runCancelledAgain data | attrSet data | stepCreated data
  | hookConflict data | hookReceived data =>
    refine projected.congr rfl rfl rfl ?_ ?_ <;> simp only [Projection.apply, data, Projection.finishRun] <;>
      split <;> rfl
  | @runFinished run status ends current active =>
    refine projected.congr rfl rfl rfl ?_ ?_ <;> cases data : event.data <;>
      simp only [Event.endsAs, data, reduceCtorEq] at ends <;>
      simp only [Projection.apply, data, Projection.finishRun] <;> split <;> rfl
  | stepUpdated updates =>
    obtain ⟨change, reads, -⟩ := Projection.apply_stepUpdate state updates
    exact projected.congr rfl rfl rfl (by rw [reads]; rfl) (by rw [reads]; rfl)
  | @hookCreated run id eventData data current active fresh =>
    have absent : before.hooks[id]? = none := by
      cases held : before.hooks[id]? with
      | none => rfl
      | some hook =>
        obtain ⟨eventId, marker⟩ := marked id hook held
        rw [fresh] at marker
        cases marker
    simp only [Projection.apply, data]
    refine ⟨projected.waits, fun other => ?_, fun other found held => ?_,
      projected.hookCreated.insert absent (event.stamp.createdHook id eventData eventData.forceClaimedFrom)⟩
    · simp only [RunStore.append, RunStore.putHookEvent, RunStore.putHook, Std.ExtTreeMap.getElem?_insert,
        Std.LawfulEqCmp.compare_eq_iff_eq, Function.update_apply]
      by_cases same : id = other
      · subst same
        simp [Stamp.createdHook, Event.hook, Event.stamp]
      · simpa [same, Ne.symm same, eq_comm, Stamp.createdHook] using projected.hooks other
    · simp only [RunStore.append, RunStore.putHookEvent, RunStore.putHook,
        Std.ExtTreeMap.getElem?_insert] at held
      split at held
      · rename_i same
        cases held
        exact Std.LawfulEqCmp.eq_of_compare same
      · exact projected.hookIds other found held
  | hookDisposed data current stored =>
    simp only [Projection.apply, data]
    exact (projected.releaseHook stored).congr rfl rfl rfl rfl rfl
  | hookForced data current active stored =>
    simp only [Projection.apply, data]
    exact (projected.releaseHook stored).congr rfl rfl rfl rfl rfl
  | waitCreated data =>
    simp only [Projection.apply, data]
    exact projected.putWait
  | @waitCompleted run id resumeAt wait data current stored waiting =>
    simp only [Projection.apply, data, ← projected.waits id, stored]
    exact projected.putWait

end Fold

end CelldWorld
