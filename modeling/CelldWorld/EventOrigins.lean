import CelldWorld.EventLog
import CelldWorld.Spec.Records

namespace CelldWorld

variable {W : WorldContract} {runId : String} {now : Nat} {before middle after : RunStore}

/-- A journaled event is stored afterwards and was not stored before. -/
theorem Journals.gained {events : List Event} {event : Event}
    (journals : Journals W runId now before events after)
    (dense : SlotLog.Dense W.slotToEventId before.events before.eventSequence) (member : event ∈ events) :
    after.events[event.eventId]? = some event ∧ before.events[event.eventId]? = none := by
  induction journals with
  | start => cases member
  | @next events middle after last journals stamped journal ih =>
    obtain ⟨held, kept⟩ := journals.keeps dense
    obtain ⟨stored, -⟩ := journal.appends
    have fresh : middle.events[last.eventId]? = none := by
      have absent := held.next_absent W.slotToEventId_injective
      rw [stamped.eventId]
      rwa [Std.ExtTreeMap.mem_iff_isSome_getElem?, Option.not_isSome_iff_eq_none] at absent
    rcases List.mem_append.mp member with earlier | latest
    · obtain ⟨found, absent⟩ := ih earlier
      refine ⟨?_, absent⟩
      rw [stored, Std.ExtTreeMap.getElem?_insert, if_neg]
      · exact found
      · intro same
        rw [Std.LawfulEqCmp.eq_of_compare same, found] at fresh
        cases fresh
    · obtain rfl := List.mem_singleton.mp latest
      refine ⟨by rw [stored, Std.ExtTreeMap.getElem?_insert_self], ?_⟩
      cases earlier : before.events[event.eventId]? with
      | none => rfl
      | some other =>
        rw [kept _ other earlier] at fresh
        cases fresh

/-- The event of a forced disposal names the claimer's hook. -/
theorem applyForcedHookDisposal_gains {hookId token : String} {claimedBy : HookTokenOwner}
    {journaled : Bool} {txn txn' : EventTxn}
    (run : applyForcedHookDisposal W runId now hookId token claimedBy txn = .ok (journaled, txn')) :
    txn.Gains (fun event => event.data = .hookDisposed hookId (some token) (some claimedBy)) txn' := by
  unfold applyForcedHookDisposal at run
  split at run
  · cases run
    exact .of_eq rfl
  split at run
  · cases run
    exact .of_eq rfl
  split at run
  · cases run
    exact .of_eq rfl
  simp only at run
  split at run
  · cases run
    exact .of_eq rfl
  split at run
  · cases run
    exact .of_eq rfl
  · obtain ⟨event, parsed, run⟩ := bind_ok.mp run
    obtain ⟨-, rfl⟩ := parseWith_ok.mp parsed
    cases run
    exact .insert rfl rfl

/-- Where the events that one transaction appends come from. -/
inductive CellOp.Origin (W : WorldContract) (now : Nat) (event : Event) : CellOp → Prop
  | request (request : ApplyEventRequest) (ctx : ApplyEventContext) (same : ctx = { request with now })
      (parsed : W.createEventSchema request.data = true)
        (supported : ctx.specVersion W = W.specVersionCurrent) (records : ctx.MayJournal W event) :
      Origin W now event (.applyEvent request)
  | forced (hookId token : String) (claimedBy : HookTokenOwner)
      (data : event.data = .hookDisposed hookId (some token) (some claimedBy)) :
      Origin W now event (.forceDisposeHook hookId token claimedBy)

/-- An appended event is stored by its transaction, under an ID that was free before. -/
theorem CellOp.gained {op : CellOp} {event : Event} (state : before.beforePayload = true)
    (cleans : before.CleansTerminal)
    (dense : SlotLog.Dense W.slotToEventId before.events before.eventSequence)
    (member : event ∈ appended W before (op.run W runId now before)) :
    (op.run W runId now before).events[event.eventId]? = some event ∧
      before.events[event.eventId]? = none := by
  obtain ⟨events, middle, journals, quiet⟩ := op.run_transition W runId now state cleans
  rw [Transition.appended journals quiet] at member
  obtain ⟨stored, fresh⟩ := journals.gained dense member
  exact ⟨quiet.events ▸ stored, fresh⟩

/-- An appended event comes from the request that the transaction applied, or from
the forced disposal that it carried out. -/
theorem CellOp.origin {op : CellOp} {event : Event} (state : before.beforePayload = true)
    (cleans : before.CleansTerminal)
    (dense : SlotLog.Dense W.slotToEventId before.events before.eventSequence)
    (member : event ∈ appended W before (op.run W runId now before)) : op.Origin W now event := by
  obtain ⟨stored, fresh⟩ := CellOp.gained state cleans dense member
  cases silent : op.mayJournal with
  | false =>
    rw [(op.run_quiet W runId now silent state cleans).events] at stored
    cases fresh.symm.trans stored
  | true =>
    cases op with
    | applyEvent request =>
      cases call : WorkflowRunDO.applyEvent W runId now request before with
      | error =>
        simp only [CellOp.run, call, transaction] at stored
        cases fresh.symm.trans stored
      | ok answer =>
        simp only [CellOp.run, call, transaction] at stored
        rcases WorkflowRunDO.applyEvent_ok call with ⟨-, same⟩ | ⟨success, txn, ofRun, -, applied, commit⟩
        · rw [same] at stored
          cases fresh.symm.trans stored
        · rw [(WorkflowRunDO.commitOutcome_quiet (applyEvent_answers applied) commit).events] at stored
          rcases applyEvent_gains applied _ _ stored with earlier | new
          · cases fresh.symm.trans earlier
          · exact .request request _ rfl (WorkflowRunDO.applyEvent_parsed call) (applyEvent_supported applied) new
    | forceDisposeHook hookId token claimedBy =>
      cases call : WorkflowRunDO.forceDisposeHook W runId now hookId token claimedBy before with
      | error =>
        simp only [CellOp.run, call, transaction] at stored
        cases fresh.symm.trans stored
      | ok answer =>
        simp only [CellOp.run, call, transaction] at stored
        unfold WorkflowRunDO.forceDisposeHook at call
        split at call
        · cases call
        split at call
        · cases call
          cases fresh.symm.trans stored
        obtain ⟨⟨journaled, txn⟩, disposal, run⟩ := bind_ok.mp call
        cases run
        have stored : txn.store.events[event.eventId]? = some event := by
          unfold EventTxn.persist at stored
          split at stored <;> exact stored
        rcases applyForcedHookDisposal_gains disposal _ _ stored with earlier | new
        · cases fresh.symm.trans earlier
        · exact .forced hookId token claimedBy new
    | _ => cases silent

/-- Where the events come from that a transaction of a reachable cell appends. -/
theorem CellReach.origin {clock : Nat → Nat → Prop} {earlier : Nat} {store : RunStore} {history : List Event}
    {op : CellOp} {event : Event} (reach : CellReach W runId clock earlier store history)
    (member : event ∈ appended W store (op.run W runId now store)) : op.Origin W now event := by
  cases active : store.beforePayload with
  | false =>
    rw [(CellOp.run_remains W runId now op active).appended] at member
    cases member
  | true =>
    obtain ⟨cleans, log⟩ := ((logState_invariant W runId clock).reach reach).1 active
    exact CellOp.origin active cleans log.dense member

end CelldWorld
