import CelldWorld.DeferredCleanup
import CelldWorld.EventOrigins

namespace CelldWorld

/-- What the deferred execution keeps, whatever is deleted and when. -/
structure RunStore.Deferring (W : WorldContract) (store : RunStore) : Prop where
  cleans : store.CleansTerminal
  dense : SlotLog.Dense W.slotToEventId store.events store.eventSequence
  keyed : ∀ (id : String) hook, store.hooks[id]? = some hook → hook.hookId = id
  unforced : ∀ id : String, store.hookForced[id]? = none

variable {W : WorldContract} {runId : String} {now : Nat}

theorem Journal.isTerminal_eq {before after : RunStore} {event : Event}
    (journal : Journal W before event after) (goesOn : event.endsAs = none) :
    after.isTerminal = before.isTerminal := by
  cases journal
  case runCreated data absent =>
    simp [RunStore.isTerminal, absent, RunStore.append, RunStore.putRun, Stamp.createdRun,
      isTerminalWorkflowRunStatus]
  case runStarted data current fresh =>
    simp [RunStore.isTerminal, current, fresh, RunStore.append, RunStore.putRun, Stamp.startedRun,
      isTerminalWorkflowRunStatus]
  case runFinished ends _ _ => cases goesOn.symm.trans ends
  case attrSet data current active unmarked =>
    simp [RunStore.isTerminal, RunStore.append, RunStore.markAttribute, current, RunStore.putRun,
      Stamp.attributedRun]
  all_goals rfl

theorem Journal.keyed {before after : RunStore} {event : Event} (journal : Journal W before event after)
    (keyed : ∀ (id : String) hook, before.hooks[id]? = some hook → hook.hookId = id) :
    ∀ (id : String) hook, after.hooks[id]? = some hook → hook.hookId = id := by
  have erased (other : String) : ∀ (id : String) (hook : Hook),
      (before.hooks.erase other)[id]? = some hook → hook.hookId = id := by
    intro id hook stored
    rw [Std.ExtTreeMap.getElem?_erase] at stored
    split at stored
    · cases stored
    · exact keyed id hook stored
  cases journal
  case hookCreated id eventData data current active fresh =>
    intro other hook stored
    change (before.hooks.insert id _)[other]? = some hook at stored
    rw [Std.ExtTreeMap.getElem?_insert] at stored
    split at stored
    · rename_i same
      obtain rfl := Option.some.inj stored
      exact Std.LawfulEqCmp.eq_of_compare same
    · exact keyed other hook stored
  case hookDisposed id _ _ _ _ _ _ => exact erased id
  case hookForced id _ _ _ _ _ _ _ _ _ => exact erased id
  all_goals exact keyed

theorem Journals.deferring {before after : RunStore} {events : List Event}
    (journals : Journals W runId now before events after) (deferring : before.Deferring W)
    (unforced : after.hookForced = before.hookForced) : after.Deferring W := by
  refine ⟨journals.cleansTerminal deferring.cleans, (journals.keeps deferring.dense).1, ?_, ?_⟩
  · have keyed := deferring.keyed
    clear deferring unforced
    induction journals with
    | start => exact keyed
    | next _ _ journal ih => exact journal.keyed ih
  · rw [unforced]
    exact deferring.unforced

theorem Journals.isTerminal {before after : RunStore} {events : List Event}
    (journals : Journals W runId now before events after) (terminal : before.isTerminal = true) :
    after.isTerminal = true := by
  induction journals with
  | start => exact terminal
  | next _ _ journal ih => exact journal.isTerminal ih

theorem Journals.isTerminal_eq {before after : RunStore} {events : List Event}
    (journals : Journals W runId now before events after)
    (goesOn : ∀ event ∈ events, event.endsAs = none) : after.isTerminal = before.isTerminal := by
  induction journals with
  | start => rfl
  | next _ _ journal ih =>
    rw [journal.isTerminal_eq (goesOn _ (List.mem_append_right _ (.head _)))]
    exact ih fun event member => goesOn event (List.mem_append_left _ member)

theorem Quiet.deferring {before after : RunStore} (quiet : Quiet before after)
    (deferring : before.Deferring W) (forced : after.hookForced = before.hookForced) :
    after.Deferring W where
  cleans := quiet.cleansTerminal deferring.cleans
  dense := by
    rw [quiet.events, quiet.eventSequence]
    exact deferring.dense
  keyed id hook stored := deferring.keyed id hook (quiet.hooks.some stored)
  unforced id := forced ▸ deferring.unforced id

theorem RunStore.deferring_empty : RunStore.Deferring W {} where
  cleans := nofun
  dense := SlotLog.dense_empty
  keyed id hook stored := by simp at stored
  unforced id := by simp

/-- A terminal page of the deferred execution touches derived keys only. -/
theorem RunStore.deleteAll_derived {keys : List StoreKey} {store : RunStore}
    (derived : ∀ key ∈ keys, key.isDerived = true) :
    ∃ swept, store.deleteAll keys = store.withDerived swept := by
  induction keys generalizing store with
  | nil => exact ⟨store, rfl⟩
  | cons key keys ih =>
    obtain ⟨swept, rest⟩ := @ih (store.delete key) fun other member => derived other (.tail _ member)
    have first := derived key (.head _)
    refine ⟨swept, rest.trans ?_⟩
    cases key <;> simp only [StoreKey.isDerived, Bool.false_eq_true] at first <;> rfl

/-- The transactions of the terminal cleanup. -/
def CellOp.cleansTerminal : CellOp → Bool
  | .executeTerminalCleanup .. | .recordTerminalCleanupFailure .. => true
  | _ => false

/-- Terminal cleanup touches derived keys only, and nothing without its record. -/
theorem CellStep.derived {op : CellOp} {store after : RunStore} (step : CellStep W runId now store op after)
    (cleans : op.cleansTerminal = true) :
    (∃ swept, after = store.withDerived swept) ∧ (store.terminalCleanup = none → after = store) := by
  cases step with
  | idle => exact ⟨⟨store, rfl⟩, fun _ => rfl⟩
  | @swept expected page keys terminalCleanup alarm held derived =>
    obtain ⟨swept, deleted⟩ := @RunStore.deleteAll_derived keys store derived
    refine ⟨⟨{ swept with terminalCleanup, alarm }, by rw [deleted]; rfl⟩, fun none_ => ?_⟩
    rw [none_] at held
    cases held
  | terminalFailed held =>
    exact ⟨⟨{ store with terminalCleanup := some _, alarm := some _ }, rfl⟩,
      fun none_ => by cases none_.symm.trans held⟩
  | fenced resolves =>
    cases op <;> simp only [CellOp.cleansTerminal, CellOp.resolvesClaim, Bool.false_eq_true] at cleans resolves
  | _ => cases cleans

/-- Only a terminal event ends a run. -/
theorem CreateEvent.Records.goesOn {request : CreateEvent} {data : EventData} (records : request.Records data)
    (unfinished : request.finishes = false) : data ≠ .runCancelled ∧ (∀ output, data ≠ .runCompleted output) ∧
      ∀ error errorCode, data ≠ .runFailed error errorCode := by
  cases request with
  | runStarted => rcases records with rfl | ⟨_, rfl⟩ <;> exact ⟨nofun, nofun, nofun⟩
  | stepStarted => rcases records with rfl | ⟨_, rfl⟩ <;> exact ⟨nofun, nofun, nofun⟩
  | hookCreated => rcases records with ⟨_, rfl⟩ | ⟨_, _, _, rfl⟩ <;> exact ⟨nofun, nofun, nofun⟩
  | runCompleted | runFailed | runCancelled => cases unfinished
  | _ =>
    cases records
    exact ⟨nofun, nofun, nofun⟩

namespace WorkflowRunDO
variable {store after : RunStore} {request : ApplyEventRequest}

theorem commitOutcome_hookForced {success : ApplyEventSuccess} {txn : EventTxn} {outcome : ApplyEventOutcome}
    (run : commitOutcome W request now txn.store.eventSequence success txn = .ok (outcome, after)) :
    after.hookForced = txn.store.hookForced := by
  obtain ⟨scheduled, committed, -⟩ := commitOutcome_ok run
  cases committed <;> rfl

end WorkflowRunDO

/-- What an accepted event has made of the transaction's store. -/
structure EventTxn.Accepts (W : WorldContract) (ctx : ApplyEventContext) (store : RunStore) (txn : EventTxn) :
    Prop where
  deferring : txn.commit.Deferring W
  ended : store.isTerminal = true → txn.commit.isTerminal = true
  goesOn : ctx.data.data.finishes = false → txn.commit.isTerminal = store.isTerminal

theorem EventTxn.accepts {ctx : ApplyEventContext} {store : RunStore} {success : ApplyEventSuccess}
    {txn : EventTxn} (deferring : store.Deferring W)
    (applied : applyEvent W true ctx ⟨store, store.eventSequence⟩ = .ok (.ok success, txn)) :
    txn.Accepts W ctx store := by
  obtain ⟨-, unforced, events, journals⟩ := applyEvent_journals applied
  have records : ∀ event ∈ events, ctx.data.data.Records event.data := by
    intro event member
    obtain ⟨stored, fresh⟩ := journals.gained deferring.dense member
    rcases applyEvent_gains applied event.eventId event stored with earlier | may
    · cases fresh.symm.trans earlier
    · exact may.data
  refine ⟨journals.deferring deferring unforced, ?_, ?_⟩
  · exact fun terminal => journals.isTerminal terminal
  · intro unfinished
    refine journals.isTerminal_eq fun event member => ?_
    obtain ⟨uncancelled, uncompleted, unfailed⟩ := (records event member).goesOn unfinished
    unfold Event.endsAs
    split
    · rename_i same
      cases uncompleted _ same
    · rename_i same
      cases unfailed _ _ same
    · rename_i same
      cases uncancelled same
    · rfl

end CelldWorld
