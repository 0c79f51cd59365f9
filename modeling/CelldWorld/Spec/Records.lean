import CelldWorld.Spec.Answers

namespace CelldWorld

/-- The event data that one request may journal, in the order of its slots. -/
def CreateEvent.Records : CreateEvent → EventData → Prop
  | .runStarted _, data => data = .runStarted ∨ ∃ eventData, data = .runCreated eventData
  | .stepStarted id eventData, data =>
      data = (CreateEvent.stepStarted id eventData).record ∨ ∃ creation, data = .stepCreated id creation
  | .hookCreated id _, data => (∃ eventData, data = .hookCreated id eventData) ∨
      ∃ token holder reason, data = .hookConflict id token holder reason
  | request, data => data = request.record

/-- The events that one request may journal. -/
structure ApplyEventContext.MayJournal (W : WorldContract) (ctx : ApplyEventContext) (event : Event) :
    Prop where
  data : ctx.data.data.Records event.data
  specVersion : event.specVersion = ctx.specVersion W
  resumeId : event.resumeId = if event.data.isHookReceived then ctx.resumeId else none

/-- Every event that a transaction stored meanwhile is one it may journal. -/
def EventTxn.Gains (may : Event → Prop) (txn txn' : EventTxn) : Prop :=
  ∀ (id : String) event, txn'.store.events[id]? = some event → txn.store.events[id]? = some event ∨ may event

namespace EventTxn.Gains
variable {may : Event → Prop} {first middle last : EventTxn}

theorem of_eq (same : last.store.events = first.store.events) : first.Gains may last :=
  fun _ _ stored => .inl (same ▸ stored)

theorem trans (head : first.Gains may middle) (tail : middle.Gains may last) : first.Gains may last := by
  intro id event stored
  rcases tail id event stored with earlier | new
  · exact head id event earlier
  · exact .inr new

theorem insert {id : String} {event : Event} (allowed : may event)
    (same : last.store.events = first.store.events.insert id event) : first.Gains may last := by
  intro other found stored
  rw [same, Std.ExtTreeMap.getElem?_insert] at stored
  split at stored
  · exact .inr (Option.some.inj stored ▸ allowed)
  · exact .inl stored

end EventTxn.Gains

/-- The stored run is the one that was stored before, or one that the schema has checked. -/
def RunStore.Rewrites (W : WorldContract) (before after : RunStore) : Prop :=
  after.run = before.run ∨ ∃ run, after.run = some run ∧ W.workflowRunSchema run = true

/-- The schema has checked the stored run. -/
def RunStore.Parsed (W : WorldContract) (store : RunStore) : Prop :=
  ∀ run, store.run = some run → W.workflowRunSchema run = true

namespace RunStore
variable {W : WorldContract} {before middle after : RunStore}

theorem Rewrites.refl : Rewrites W before before :=
  .inl rfl

theorem Rewrites.trans (head : Rewrites W before middle) (tail : Rewrites W middle after) :
    Rewrites W before after := by
  rcases tail with same | parsed
  · unfold Rewrites
    rw [same]
    exact head
  · exact .inr parsed

theorem Rewrites.parsed (rewrites : Rewrites W before after) (parsed : before.Parsed W) : after.Parsed W := by
  intro run stored
  rcases rewrites with same | ⟨other, written, valid⟩
  · exact parsed run (same ▸ stored)
  · exact Option.some.inj (written.symm.trans stored) ▸ valid

end RunStore

namespace ApplyEventContext
variable {W : WorldContract} {ctx : ApplyEventContext} {txn txn' : EventTxn} {success : ApplyEventSuccess}
  {currentRun : Option WorkflowRun} {bootstrapped : Option RunCreatedInfo} {validatedStep : Option Step}

/-- A built event of the request's own data. -/
theorem Built.mayJournal {data : EventData} {event : Event} (built : ctx.Built W txn data event)
    (records : ctx.data.data.Records data) : ctx.MayJournal W event :=
  ⟨built.recorded ▸ records, congrArg Stamp.specVersion built.stamp, by rw [built.recorded, built.resumeId]⟩

theorem Built.gains {data : EventData} {event : Event} (built : ctx.Built W txn data event)
    (records : ctx.data.data.Records data)
    (same : txn'.store.events = txn.store.events.insert event.eventId event) :
    txn.Gains (ctx.MayJournal W) txn' :=
  .insert (built.mayJournal records) same

/-- Every event may journal its own record, but for a `hook_created`, which journals its
creation or a conflict. -/
theorem records_own (other : ∀ id eventData, ctx.data.data ≠ .hookCreated id eventData) :
    ctx.data.data.Records ctx.data.data.record := by
  cases request : ctx.data.data with
  | hookCreated id eventData => exact absurd request (other id eventData)
  | runStarted | stepStarted => exact .inl rfl
  | _ => rfl

theorem WroteRun.gains (wrote : ctx.WroteRun W currentRun bootstrapped txn success txn') :
    txn.Gains (ctx.MayJournal W) txn' := by
  cases wrote with
  | runExists | runRunning => exact .of_eq rfl
  | runCreated request _ _ built => exact built.gains (records_own fun _ _ => by rw [request]; nofun) rfl
  | runStarted request _ _ _ built stores =>
    subst stores
    exact built.gains (records_own fun _ _ => by rw [request]; nofun) rfl
  | runFinished request _ _ built =>
    refine built.gains (records_own fun id eventData creates => ?_) rfl
    rw [creates] at request
    cases request
  | attrSet request _ _ _ built => exact built.gains (records_own fun _ _ => by rw [request]; nofun) rfl

theorem WroteStep.gains (wrote : ctx.WroteStep W validatedStep txn success txn') :
    txn.Gains (ctx.MayJournal W) txn' := by
  cases wrote with
  | created request _ built => exact built.gains (records_own fun _ _ => by rw [request]; nofun) rfl
  | started request _ _ built => exact built.gains (records_own fun _ _ => by rw [request]; nofun) rfl
  | @startedLazily id eventData creation created event lazy request missing creates stores built =>
    have creation : txn.Gains (ctx.MayJournal W) lazy := by
      subst stores
      exact creates.gains (request ▸ .inr ⟨_, rfl⟩) rfl
    exact creation.trans (built.gains (records_own fun _ _ => by rw [request]; nofun) rfl)
  | updated request _ built =>
    refine built.gains (records_own fun id eventData creates => ?_) rfl
    rw [creates] at request
    cases request

theorem WroteHook.gains (wrote : ctx.WroteHook W txn success txn') : txn.Gains (ctx.MayJournal W) txn' := by
  cases wrote with
  | conflict request built => exact built.gains (request ▸ .inr ⟨_, _, _, rfl⟩) rfl
  | replayed => exact .of_eq rfl
  | created request _ built => exact built.gains (request ▸ .inl ⟨_, rfl⟩) rfl
  | received request _ built => exact built.gains (records_own fun _ _ => by rw [request]; nofun) rfl
  | disposed request _ built => exact built.gains (records_own fun _ _ => by rw [request]; nofun) rfl

theorem WroteWait.gains (wrote : ctx.WroteWait W txn success txn') : txn.Gains (ctx.MayJournal W) txn' := by
  cases wrote with
  | created request _ built => exact built.gains (records_own fun _ _ => by rw [request]; nofun) rfl
  | completed request _ _ built => exact built.gains (records_own fun _ _ => by rw [request]; nofun) rfl

theorem Guarded.gains (guarded : ctx.Guarded W currentRun bootstrapped txn success txn') :
    txn.Gains (ctx.MayJournal W) txn' := by
  cases guarded with
  | resumed | released => exact .of_eq rfl
  | wrote admitted wrote =>
    cases wrote with
    | run wrote => exact wrote.gains
    | step wrote => exact wrote.gains
    | hook wrote => exact wrote.gains
    | wait wrote => exact wrote.gains

theorem Bootstrapped.gains {handed : Option WorkflowRun} {info : Option RunCreatedInfo}
    (boot : ctx.Bootstrapped W currentRun txn handed info txn') : txn.Gains (ctx.MayJournal W) txn' := by
  cases boot with
  | read => exact .of_eq rfl
  | created request _ _ built => exact built.gains (request ▸ .inr ⟨_, rfl⟩) rfl

/-- Only the run and attribute events write the run, and each has parsed what it writes. -/
theorem WroteRun.rewrites (wrote : ctx.WroteRun W currentRun bootstrapped txn success txn') :
    txn.store.Rewrites W txn'.store := by
  cases wrote with
  | runExists | runRunning => exact .refl
  | runStarted _ _ _ valid _ stores =>
    subst stores
    exact .inr ⟨_, rfl, valid⟩
  | runCreated _ _ valid | runFinished _ _ valid => exact .inr ⟨_, rfl, valid⟩
  | attrSet _ _ _ valid => exact .inr ⟨_, rfl, valid⟩

theorem Bootstrapped.rewrites {handed : Option WorkflowRun} {info : Option RunCreatedInfo}
    (boot : ctx.Bootstrapped W currentRun txn handed info txn') : txn.store.Rewrites W txn'.store := by
  cases boot with
  | read => exact .refl
  | created _ _ valid => exact .inr ⟨_, rfl, valid⟩

end ApplyEventContext

section Event
variable {W : WorldContract} {ctx : ApplyEventContext} {txn txn' : EventTxn} {success : ApplyEventSuccess}

/-- A successful application stores only events of its own request. -/
theorem applyEvent_gains (run : applyEvent W true ctx txn = .ok (.ok success, txn')) :
    txn.Gains (ctx.MayJournal W) txn' := by
  cases applyEvent_applied run with
  | cancelledAgain request _ _ built => exact built.gains (request ▸ rfl) rfl
  | guarded boot guarded => exact boot.gains.trans guarded.gains

/-- A successful event application keeps the stored run or stores one that was parsed. -/
theorem applyEvent_rewrites (run : applyEvent W true ctx txn = .ok (.ok success, txn')) :
    txn.store.Rewrites W txn'.store := by
  cases applyEvent_applied run with
  | cancelledAgain => exact .inl rfl
  | guarded boot guarded =>
    refine boot.rewrites.trans ?_
    rcases guarded.cases_run with ⟨_, -, wrote⟩ | aside
    · exact wrote.rewrites
    · exact .inl aside.run

end Event

end CelldWorld
