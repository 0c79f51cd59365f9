import CelldWorld.Spec.Answers

namespace CelldWorld

/-- What an answer tells of the hooks that its transaction stored and removed. -/
structure HookAnswer (txn txn' : EventTxn) (success : ApplyEventSuccess) : Prop where
  kept : ∀ (id : String) (hook : Hook), txn.store.hooks[id]? = some hook →
    txn'.store.hooks[id]? = some hook ∨ ⟨hook.hookId, hook.token⟩ ∈ success.releasedHooks
  found : ∀ (id : String) (hook : Hook), txn'.store.hooks[id]? = some hook →
    txn.store.hooks[id]? = some hook ∨ (success.hookToIndex = some hook ∧ hook.hookId = id)
  indexed : ∀ hook, success.hookToIndex = some hook → ∃ id : String, txn'.store.hooks[id]? = some hook
  ended : txn'.store.isTerminal = true → txn.store.isTerminal = true ∨ success.run = txn'.store.run

/-- A stored hook has left the marker of its event. -/
def RunStore.HooksMarked (store : RunStore) : Prop :=
  ∀ (id : String) (hook : Hook), store.hooks[id]? = some hook → (store.hookEvent[id]?).isSome

theorem isTerminal_of_run {before after : RunStore} (run : after.run = before.run) :
    after.isTerminal = before.isTerminal := by
  rw [RunStore.isTerminal, run, RunStore.isTerminal]

namespace HookAnswer
variable {txn txn' : EventTxn} {success : ApplyEventSuccess}

theorem of_same (hooks : txn'.store.hooks = txn.store.hooks) (unindexed : success.hookToIndex = none)
    (run : txn'.store.run = txn.store.run ∨ success.run = txn'.store.run) : HookAnswer txn txn' success where
  kept _ _ stored := .inl (hooks ▸ stored)
  found _ _ stored := .inl (hooks ▸ stored)
  indexed hook same := by
    rw [unindexed] at same
    cases same
  ended terminal := run.imp (fun same => (isTerminal_of_run same).symm.trans terminal) id

/-- What comes before the writes leaves the hooks alone and ends no run. -/
theorem after {middle : EventTxn} (answer : HookAnswer middle txn' success)
    (hooks : middle.store.hooks = txn.store.hooks)
    (active : middle.store.isTerminal = true → txn.store.isTerminal = true) : HookAnswer txn txn' success where
  kept id hook stored := answer.kept id hook (hooks ▸ stored)
  found id hook stored := hooks ▸ answer.found id hook stored
  indexed := answer.indexed
  ended terminal := (answer.ended terminal).imp_left active

end HookAnswer

namespace ApplyEventContext
variable {W : WorldContract} {ctx : ApplyEventContext} {txn txn' : EventTxn} {success : ApplyEventSuccess}
  {currentRun : Option WorkflowRun} {bootstrapped : Option RunCreatedInfo} {validatedStep : Option Step}

theorem WroteRun.hooks (wrote : ctx.WroteRun W currentRun bootstrapped txn success txn') :
    HookAnswer txn txn' success := by
  cases wrote with
  | runExists | runRunning => exact .of_same rfl rfl (.inl rfl)
  | runStarted _ _ _ _ _ stores =>
    subst stores
    exact .of_same rfl rfl (.inr rfl)
  | runCreated | runFinished | attrSet => exact .of_same rfl rfl (.inr rfl)

theorem WroteStep.hooks (wrote : ctx.WroteStep W validatedStep txn success txn') :
    HookAnswer txn txn' success := by
  cases wrote with
  | startedLazily _ _ _ stores =>
    subst stores
    exact .of_same rfl rfl (.inl rfl)
  | created | started | updated => exact .of_same rfl rfl (.inl rfl)

/-- A creation is indexed, be it new or the replay of one whose index writes were lost, and
a disposal answers which hook it has released. -/
theorem WroteHook.hooks (marked : txn.store.HooksMarked) (wrote : ctx.WroteHook W txn success txn') :
    HookAnswer txn txn' success := by
  cases wrote with
  | conflict => exact .of_same rfl rfl (.inl rfl)
  | received => exact .of_same rfl rfl (.inl rfl)
  | @replayed id eventData hook request stored =>
    exact ⟨fun _ _ => .inl, fun _ _ => .inl, fun _ same => ⟨id, Option.some.inj same ▸ stored⟩, .inl⟩
  | @created id eventData claimedFrom event request fresh built =>
    have inserted (other : String) :
        (txn.store.hooks.insert id ((ctx.stamp W).createdHook id eventData claimedFrom))[other]? =
          if compare id other = .eq then some ((ctx.stamp W).createdHook id eventData claimedFrom)
          else txn.store.hooks[other]? :=
      Std.ExtTreeMap.getElem?_insert
    refine ⟨fun other hook stored => .inl ?_, fun other hook stored => ?_, fun hook same => ⟨id, ?_⟩, .inl⟩
    · refine (inserted other).trans ?_
      rw [if_neg, stored]
      intro same
      obtain rfl := Std.LawfulEqCmp.eq_of_compare same
      have mark := marked id hook stored
      rw [fresh] at mark
      cases mark
    · have written := (inserted other).symm.trans stored
      by_cases same : compare id other = .eq
      · rw [if_pos same] at written
        obtain rfl := Std.LawfulEqCmp.eq_of_compare same
        exact .inr ⟨written, congrArg Hook.hookId (Option.some.inj written).symm⟩
      · rw [if_neg same] at written
        exact .inl written
    · refine (inserted id).trans ?_
      rw [if_pos Std.ReflCmp.compare_self]
      exact same
  | @disposed id token claimedBy hook event request stored built =>
    have erased (other : String) : (txn.store.hooks.erase id)[other]? =
        if compare id other = .eq then none else txn.store.hooks[other]? :=
      Std.ExtTreeMap.getElem?_erase
    refine ⟨fun other kept stored' => ?_, fun other found stored' => ?_, fun _ same => ?_, .inl⟩
    · by_cases same : compare id other = .eq
      · obtain rfl := Std.LawfulEqCmp.eq_of_compare same
        obtain rfl := Option.some.inj (stored.symm.trans stored')
        exact .inr (.head _)
      · exact .inl ((erased other).trans (by rw [if_neg same, stored']))
    · have left := (erased other).symm.trans stored'
      by_cases same : compare id other = .eq
      · rw [if_pos same] at left
        cases left
      · rw [if_neg same] at left
        exact .inl left
    · cases same

theorem WroteWait.hooks (wrote : ctx.WroteWait W txn success txn') : HookAnswer txn txn' success := by
  cases wrote with
  | created | completed => exact .of_same rfl rfl (.inl rfl)

theorem Guarded.hooks (marked : txn.store.HooksMarked)
    (guarded : ctx.Guarded W currentRun bootstrapped txn success txn') : HookAnswer txn txn' success := by
  cases guarded with
  | resumed | released => exact .of_same rfl rfl (.inl rfl)
  | wrote admitted wrote =>
    cases wrote with
    | run wrote => exact wrote.hooks
    | step wrote => exact wrote.hooks
    | hook wrote => exact wrote.hooks marked
    | wait wrote => exact wrote.hooks

/-- Bootstrapping stores no hook and no ended run. -/
theorem Bootstrapped.hooks {handed : Option WorkflowRun} {info : Option RunCreatedInfo}
    (boot : ctx.Bootstrapped W currentRun txn handed info txn') :
    txn'.store.hooks = txn.store.hooks ∧ txn'.store.hookEvent = txn.store.hookEvent ∧
      (txn'.store.isTerminal = true → txn.store.isTerminal = true) := by
  cases boot with
  | read => exact ⟨rfl, rfl, id⟩
  | created => exact ⟨rfl, rfl, fun terminal => by cases terminal⟩

end ApplyEventContext

/-- A successful event application answers the hooks that it has stored and removed. -/
theorem applyEvent_hooks {W : WorldContract} {ctx : ApplyEventContext} {txn txn' : EventTxn}
    {success : ApplyEventSuccess} (marked : txn.store.HooksMarked)
    (run : applyEvent W true ctx txn = .ok (.ok success, txn')) : HookAnswer txn txn' success := by
  cases applyEvent_applied run with
  | cancelledAgain => exact .of_same rfl rfl (.inl rfl)
  | @guarded currentRun info first _ _ boot guarded =>
    obtain ⟨hooks, events, active⟩ := boot.hooks
    have marked : first.store.HooksMarked := by
      intro id hook stored
      rw [events]
      exact marked id hook (hooks ▸ stored)
    exact (guarded.hooks marked).after hooks active

end CelldWorld
