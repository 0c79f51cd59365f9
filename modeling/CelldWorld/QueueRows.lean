import CelldWorld.Expiry
import CelldWorld.QueueFleet
import CelldWorld.Spec.Pages
import CelldWorld.Spec.Answers

namespace CelldWorld

/-- The transaction applies an event that creates a missing run. -/
def CellOp.createsRun : CellOp → Bool
  | .applyEvent request => request.data.data.createsRun
  | _ => false

def CellOp.isQueue : CellOp → Bool
  | .queue _ => true
  | _ => false

/-- Two stores of a run cell keep the same of its queue messages. -/
structure RunStore.SameQueue (before after : RunStore) : Prop where
  scope : after.queueClaimScope = before.queueClaimScope
  claims : after.queueClaims = before.queueClaims
  payloads : after.queuePayloads = before.queuePayloads

/-- A store keeps less of the queue messages of its run. -/
structure RunStore.LessQueue (before after : RunStore) : Prop where
  scope : after.queueClaimScope = before.queueClaimScope ∨ after.queueClaimScope = none
  claims : ∀ claimName : String, after.queueClaims[claimName]? = before.queueClaims[claimName]? ∨
    after.queueClaims[claimName]? = none
  payloads : ∀ messageId : String, after.queuePayloads[messageId]? = before.queuePayloads[messageId]? ∨
    after.queuePayloads[messageId]? = none

/-- What the other transactions of a run cell do to its queue messages: nothing, unless
they create the run or delete what an expired run has left. -/
inductive QueueRowStep (now : Nat) (op : CellOp) (before after : RunStore) : Prop
  | kept (same : before.SameQueue after)
  | created (absent : before.run = none) (creates : op.createsRun = true)
      (unexpired : before.tombstoneFrom now = none)
      (scope : after.queueClaimScope = some "run") (claims : after.queueClaims = before.queueClaims)
      (payloads : after.queuePayloads = before.queuePayloads)
  | swept (expired : (after.tombstoneFrom now).isSome) (less : before.LessQueue after)

variable {W : WorldContract} {runId : String} {now : Nat} {op : CellOp} {store before middle after : RunStore}

namespace RunStore

theorem SameQueue.refl : store.SameQueue store :=
  ⟨rfl, rfl, rfl⟩

theorem SameQueue.trans (head : before.SameQueue middle) (tail : middle.SameQueue after) :
    before.SameQueue after :=
  ⟨tail.scope.trans head.scope, tail.claims.trans head.claims, tail.payloads.trans head.payloads⟩

theorem LessQueue.refl : store.LessQueue store :=
  ⟨.inl rfl, fun _ => .inl rfl, fun _ => .inl rfl⟩

theorem LessQueue.trans (head : before.LessQueue middle) (tail : middle.LessQueue after) :
    before.LessQueue after where
  scope := by
    rcases tail.scope with same | gone
    · exact same ▸ head.scope
    · exact .inr gone
  claims claimName := by
    rcases tail.claims claimName with same | gone
    · exact same ▸ head.claims claimName
    · exact .inr gone
  payloads messageId := by
    rcases tail.payloads messageId with same | gone
    · exact same ▸ head.payloads messageId
    · exact .inr gone

theorem delete_less {key : StoreKey} : store.LessQueue (store.delete key) := by
  cases key with
  | queueClaimScope => exact ⟨.inr rfl, fun _ => .inl rfl, fun _ => .inl rfl⟩
  | queueClaim id =>
    refine ⟨.inl rfl, fun claimName => ?_, fun _ => .inl rfl⟩
    simp only [delete, Std.ExtTreeMap.getElem?_erase]
    split <;> simp
  | queuePayload id =>
    refine ⟨.inl rfl, fun _ => .inl rfl, fun messageId => ?_⟩
    simp only [delete, Std.ExtTreeMap.getElem?_erase]
    split <;> simp
  | _ => exact ⟨.inl rfl, fun _ => .inl rfl, fun _ => .inl rfl⟩

theorem deleteAll_less {keys : List StoreKey} : store.LessQueue (store.deleteAll keys) := by
  induction keys generalizing store with
  | nil => exact .refl
  | cons key keys ih => exact delete_less.trans ih

/-- No key of a queue message is among the derived keys. -/
theorem deleteAll_sameQueue {keys : List StoreKey} (derived : ∀ key ∈ keys, key.isDerived = true) :
    store.SameQueue (store.deleteAll keys) := by
  induction keys generalizing store with
  | nil => exact .refl
  | cons key keys ih =>
    refine .trans ?_ (ih fun other member => derived other (.tail _ member))
    have first := derived key (.head _)
    cases key <;> first | exact ⟨rfl, rfl, rfl⟩ | cases first

end RunStore

open RunStore

theorem Journals.sameQueue {events : List Event} (journals : Journals W runId now before events after) :
    before.SameQueue after := by
  induction journals with
  | start => exact .refl
  | next _ _ journal ih => exact ih.trans (by cases journal <;> exact ⟨rfl, rfl, rfl⟩)

theorem Committed.queue {success scheduled : ApplyEventSuccess}
    (committed : Committed W now success store scheduled after) :
    after.queueClaimScope = (if success.runCreated.isSome then some "run" else store.queueClaimScope) ∧
      after.queueClaims = store.queueClaims ∧ after.queuePayloads = store.queuePayloads := by
  cases committed with
  | active scope | ended scope | retained scope => exact ⟨scope, rfl, rfl⟩

namespace WorkflowRunDO

theorem applyEvent_queue {request : ApplyEventRequest} {outcome : ApplyEventOutcome}
    (call : applyEvent W runId now request store = .ok (outcome, after)) :
    QueueRowStep now (.applyEvent request) store after := by
  rcases applyEvent_ok call with ⟨-, rfl⟩ | ⟨success, txn, -, unexpired, applied, commit⟩
  · exact .kept .refl
  have creates := applyEvent_creates applied
  obtain ⟨-, -, events, journals⟩ := applyEvent_journals applied
  obtain ⟨scheduled, committed, -⟩ := commitOutcome_ok commit
  have kept := journals.sameQueue
  obtain ⟨scope, claims, payloads⟩ := committed.queue
  cases created : success.runCreated.isSome with
  | true =>
    obtain ⟨absent, event⟩ := creates created
    rw [created, if_pos rfl] at scope
    exact .created absent event unexpired scope (claims.trans kept.claims) (payloads.trans kept.payloads)
  | false =>
    rw [created, if_neg nofun] at scope
    exact .kept (kept.trans ⟨scope, claims, payloads⟩)

theorem forceDisposeHook_sameQueue {hookId token : String} {claimedBy : HookTokenOwner} {journaled : Bool}
    (call : forceDisposeHook W runId now hookId token claimedBy store = .ok (journaled, after)) :
    store.SameQueue after := by
  rcases forceDisposeHook_ok call with ⟨-, events, journals⟩ | ⟨hook, -, -, -, -, rfl⟩
  · exact journals.sameQueue
  · exact ⟨rfl, rfl, rfl⟩

end WorkflowRunDO

theorem BatchStep.queue (step : BatchStep now store after) : QueueRowStep now op store after := by
  cases step with
  | idle same =>
    rw [same]
    exact .kept .refl
  | batched stored payload nodup present batch =>
    have less := @deleteAll_less store
    rw [batch]
    exact .swept rfl ⟨less.scope, less.claims, less.payloads⟩
  | finished stored payload batch =>
    rw [batch]
    exact .kept ⟨rfl, rfl, rfl⟩

/-- A page keeps the queue messages, or the run is expired after it. -/
theorem PageStep.queue {expected : CleanupRecord} {page : CleanupPage}
    (step : PageStep now expected page store after) : QueueRowStep now op store after := by
  cases step with
  | stale same =>
    obtain ⟨alarm, rfl⟩ := same
    exact .kept ⟨rfl, rfl, rfl⟩
  | batch _ _ deletes => exact deletes.queue
  | committed paged phase stored samePhase sameGeneration commit =>
    have less := @deleteAll_less store page.keys
    rw [commit]
    exact .swept (tombstoneFrom_isSome_iff.mpr (.inr ⟨_, rfl, fun retained =>
      absurd retained (CleanupPage.update_left paged)⟩)) ⟨less.scope, less.claims, less.payloads⟩

/-- Every other transaction of a run cell is one step of its queue rows. -/
theorem CellStep.queue (step : CellStep W runId now store op after) (other : op.isQueue = false) :
    QueueRowStep now op store after := by
  cases step with
  | idle => exact .kept .refl
  | applied call => exact WorkflowRunDO.applyEvent_queue call
  | disposed call => exact .kept (WorkflowRunDO.forceDisposeHook_sameQueue call)
  | queued => cases other
  | paged step => exact step.queue
  | swept held derived =>
    have kept : store.SameQueue _ := deleteAll_sameQueue derived
    exact .kept ⟨kept.scope, kept.claims, kept.payloads⟩
  | fenced | scheduled | checked | aged | due | rearmed | failed | terminalFailed => exact .kept ⟨rfl, rfl, rfl⟩

theorem CellOp.queueRowStep (W : WorldContract) (runId : String) (now : Nat) (op : CellOp) (store : RunStore)
    (other : op.isQueue = false) : QueueRowStep now op store (op.run W runId now store) :=
  (op.run_step W runId now store).queue other

end CelldWorld
