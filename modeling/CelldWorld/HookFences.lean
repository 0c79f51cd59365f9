import CelldWorld.HookReplay
import CelldWorld.EventLog
import CelldWorld.Expiry
import CelldWorld.TwinRuns
import CelldWorld.Fleet

namespace CelldWorld

/-- The calls in which the cell of a run decides whether a hook was created. -/
inductive HookResolver
  | claim (hookId token claimId : String)
  | expired (hookId claimId : String) (token : Option String)
  | forced (request : ForcedClaimRequest)

namespace HookResolver

def op : HookResolver → CellOp
  | .claim hookId token claimId => .resolveHookTokenClaim hookId token claimId
  | .expired hookId claimId token => .resolveExpiredHookClaim hookId claimId token
  | .forced request => .resolveForcedHookClaim request

/-- Whether the call answers that the creation has committed; no answer when it throws. -/
def answer (now : Nat) (store : RunStore) : HookResolver → Option Bool
  | .claim hookId token claimId => some (WorkflowRunDO.resolveHookTokenClaim now hookId token claimId store).1
  | .expired hookId claimId token =>
    (WorkflowRunDO.resolveExpiredHookClaim now hookId claimId token store).toOption.map fun answer =>
      answer.1.isSome
  | .forced request =>
    (WorkflowRunDO.resolveForcedHookClaim now request store).toOption.map fun answer => answer.1.journaled

/-- The event claim IDs that the call fences when the creation has not committed. -/
def fenced : HookResolver → List String
  | .claim _ _ claimId => [claimId]
  | .expired _ claimId _ => [eventClaimId (some claimId) claimId, eventClaimId none claimId]
  | .forced request => [eventClaimId (some request.claimId) request.claimId, eventClaimId none request.claimId]

/-- The event is the creation that the call asks about. -/
def Created (resolver : HookResolver) (event : Event) : Prop :=
  match resolver with
  | .claim hookId token _ => ∃ data, event.data = .hookCreated hookId data ∧ data.token = token
  | .expired hookId _ token =>
    ∃ data, event.data = .hookCreated hookId data ∧ ∀ wanted ∈ token, data.token = wanted
  | .forced request => ∃ data, event.data = .hookCreated request.hookId data ∧ data.token = request.token ∧
      data.forceClaimedFrom.map HookClaimedFrom.owner = some request.victim

end HookResolver

/-- A cell and its history after further transactions, on a clock that never runs backwards. -/
inductive CellLater (W : WorldContract) (runId : String) (now : Nat) (store : RunStore) (history : List Event) :
    Nat → RunStore → List Event → Prop
  | start : CellLater W runId now store history now store history
  | next {earlier later : Nat} {middle : RunStore} {events : List Event} (op : CellOp)
      (follows : CellLater W runId now store history earlier middle events) (tick : earlier ≤ later) :
      CellLater W runId now store history later (op.run W runId later middle)
        (events ++ appended W middle (op.run W runId later middle))

variable {W : WorldContract} {runId : String} {earlier now later : Nat} {store last : RunStore}
variable {history events : List Event}

theorem CellLater.reach (follows : CellLater W runId now store history later last events)
    (reach : CellReach W runId (· ≤ ·) now store history) : CellReach W runId (· ≤ ·) later last events := by
  induction follows with
  | start => exact reach
  | next op _ tick ih => exact .next op ih tick

theorem CellLater.keeps {event : Event} (follows : CellLater W runId now store history later last events)
    (member : event ∈ history) : event ∈ events := by
  induction follows with
  | start => exact member
  | next _ _ _ ih => exact List.mem_append_left _ ih

/-- The run has ended or expired. -/
def RunStore.Over (now : Nat) (store : RunStore) : Prop :=
  store.isTerminal = true ∨ (store.tombstoneFrom now).isSome

/-- No creation with this event claim ID can commit. -/
def RunStore.Blocks (now : Nat) (claimId : String) (store : RunStore) : Prop :=
  store.Over now ∨ claimId ∈ store.hookClaimCancelled

section Blocks
variable {claimId : String}

theorem Journal.fences {before after : RunStore} {event : Event} (journal : Journal W before event after) :
    after.hookClaimCancelled = before.hookClaimCancelled := by
  cases journal <;> rfl

theorem Journals.fences {before after : RunStore} (journals : Journals W runId now before events after) :
    after.hookClaimCancelled = before.hookClaimCancelled := by
  induction journals with
  | start => rfl
  | next _ _ journal ih => exact journal.fences.trans ih

/-- What blocks a creation goes on to block it: runs end for good, and a fence lasts until the
run expires. -/
theorem RunStore.Blocks.step (blocks : store.Blocks now claimId)
    (reach : CellReach W runId (· ≤ ·) earlier store history) (tick : now ≤ later) (op : CellOp) :
    (op.run W runId later store).Blocks later claimId := by
  by_cases expired : (store.tombstoneFrom now).isSome
  · exact .inl (.inr ((op.recordStep W runId later store).expired tick expired))
  have unexpired : store.tombstoneFrom now = none := Option.not_isSome_iff_eq_none.mp expired
  have before := RunStore.beforePayload_of_unexpired unexpired
  have cleans := (((logState_invariant W runId (· ≤ ·)).reach reach).1 before).1
  obtain ⟨events, middle, journals, quiet⟩ := op.run_transition W runId later before cleans
  rcases blocks with (terminal | gone) | fenced
  · exact .inl (.inl ((RunStore.isTerminal_congr quiet.run).trans (journals.isTerminal terminal)))
  · exact absurd gone expired
  · exact .inr (quiet.fences _ (journals.fences ▸ fenced))

theorem RunStore.Blocks.tick (blocks : store.Blocks now claimId) (tick : now ≤ later) :
    store.Blocks later claimId := by
  rcases blocks with (terminal | expired) | fenced
  · exact .inl (.inl terminal)
  · have same : RecordStep later .rearmCleanup store store := .kept rfl rfl
    exact .inl (.inr (same.expired tick expired))
  · exact .inr fenced

theorem CellLater.blocks (follows : CellLater W runId now store history later last events)
    (reach : CellReach W runId (· ≤ ·) now store history) (blocks : store.Blocks now claimId) :
    last.Blocks later claimId := by
  induction follows with
  | start => exact blocks
  | next op follows tick ih => exact ih.step (follows.reach reach) tick op

/-- A blocked creation leaves the cell as it is. -/
theorem RunStore.Blocks.refuses {request : ApplyEventRequest} {hookId : String} {eventData : HookCreatedData}
    (blocks : store.Blocks now claimId) (creates : request.data.data = .hookCreated hookId eventData)
    (carries : request.hookClaimId = some claimId) (named : claimId ≠ "") :
    (CellOp.applyEvent request).run W runId now store = store := by
  cases call : WorkflowRunDO.applyEvent W runId now request store with
  | error => simp only [CellOp.run, call, transaction]
  | ok answer =>
    obtain ⟨outcome, after⟩ := answer
    simp only [CellOp.run, call, transaction]
    rcases WorkflowRunDO.applyEvent_ok call with ⟨-, same⟩ | ⟨success, txn, -, unexpired, applied, -⟩
    · exact same
    obtain ⟨active, created⟩ := applyEvent_hookCreated_ok creates applied
    rcases blocks with (terminal | gone) | fenced
    · simp only [ApplyEventContext.findsActiveRun, Bool.and_eq_true, Option.any_eq_true] at active
      obtain ⟨-, run, current, -, active⟩ := active
      simp only [RunStore.isTerminal, current, Option.any_some] at terminal
      rw [terminal] at active
      cases active
    · rw [unexpired] at gone
      cases gone
    · have cancelled : ApplyEventContext.hookClaimCancelled { request with now } store = true := by
        have carried : truthy request.hookClaimId = some claimId := by simp [truthy, carries, named]
        simp only [ApplyEventContext.hookClaimCancelled, carried, Option.any_some]
        exact Std.ExtTreeMap.mem_iff_isSome_getElem?.mp fenced
      rw [ApplyEventContext.applyHookCreated, if_pos cancelled] at created
      cases created

end Blocks

/-- Every stored hook was created with its token by an event of the history, and every marker
names the event that created its hook. -/
structure HooksCreated (runId : String) (store : RunStore) (history : List Event) : Prop where
  owner : ∀ (id : String) hook, store.hooks[id]? = some hook → hookOwner hook = ⟨runId, id⟩
  hooks : ∀ (id : String) hook, store.hooks[id]? = some hook →
    ∃ event ∈ history, ∃ data, event.data = .hookCreated id data ∧ data.token = hook.token
  marked : ∀ (id : String) eventId, store.hookEvent[id]? = some eventId →
    ∃ event ∈ history, event.eventId = eventId ∧ ∃ data, event.data = .hookCreated id data

theorem HooksCreated.mono {before after : RunStore} {event : Event}
    (created : HooksCreated runId before history)
    (kept : ∀ (id : String) hook, after.hooks[id]? = some hook → before.hooks[id]? = some hook)
    (markers : after.hookEvent = before.hookEvent) : HooksCreated runId after (history ++ [event]) := by
  refine ⟨fun id hook stored => created.owner id hook (kept id hook stored), fun id hook stored => ?_,
    fun id eventId marker => ?_⟩
  · obtain ⟨origin, member, found⟩ := created.hooks id hook (kept id hook stored)
    exact ⟨origin, List.mem_append_left _ member, found⟩
  · obtain ⟨origin, member, found⟩ := created.marked id eventId (markers ▸ marker)
    exact ⟨origin, List.mem_append_left _ member, found⟩

theorem erase_stored {hooks : KeyMap Hook} {erased id : String} {hook : Hook}
    (stored : (hooks.erase erased)[id]? = some hook) : hooks[id]? = some hook := by
  rw [Std.ExtTreeMap.getElem?_erase] at stored
  split at stored
  · cases stored
  · exact stored

theorem Journal.hooksCreated {before after : RunStore} {event : Event}
    (journal : Journal W before event after)
    (ofRun : event.runId = runId) (created : HooksCreated runId before history) :
    HooksCreated runId after (history ++ [event]) := by
  cases journal with
  | @hookCreated run id eventData data current active fresh =>
    have appended : event ∈ history ++ [event] := List.mem_append_right _ (.head _)
    refine ⟨fun other hook stored => ?_, fun other hook stored => ?_, fun other eventId marker => ?_⟩
    · simp only [RunStore.append, RunStore.putHookEvent, RunStore.putHook,
        Std.ExtTreeMap.getElem?_insert] at stored
      split at stored
      · rename_i same
        obtain rfl := Option.some.inj stored
        obtain rfl : id = other := Std.LawfulEqCmp.eq_of_compare same
        simp only [hookOwner, Stamp.createdHook, Event.stamp, ofRun]
      · exact created.owner other hook stored
    · simp only [RunStore.append, RunStore.putHookEvent, RunStore.putHook,
        Std.ExtTreeMap.getElem?_insert] at stored
      split at stored
      · rename_i same
        obtain rfl := Option.some.inj stored
        obtain rfl : id = other := Std.LawfulEqCmp.eq_of_compare same
        exact ⟨event, appended, eventData, data, rfl⟩
      · obtain ⟨origin, member, found⟩ := created.hooks other hook stored
        exact ⟨origin, List.mem_append_left _ member, found⟩
    · simp only [RunStore.append, RunStore.putHookEvent, RunStore.putHook,
        Std.ExtTreeMap.getElem?_insert] at marker
      split at marker
      · rename_i same
        obtain rfl := Option.some.inj marker
        obtain rfl : id = other := Std.LawfulEqCmp.eq_of_compare same
        exact ⟨event, appended, rfl, eventData, data⟩
      · obtain ⟨origin, member, found⟩ := created.marked other eventId marker
        exact ⟨origin, List.mem_append_left _ member, found⟩
  | hookDisposed | hookForced => exact created.mono (fun _ _ stored => erase_stored stored) rfl
  | _ => exact created.mono (fun _ _ stored => stored) rfl

theorem hooksCreated_invariant (W : WorldContract) (runId : String) (clock : Nat → Nat → Prop) :
    CellInvariant W runId clock fun _ => HooksCreated runId where
  start _ := ⟨fun _ _ stored => by simp at stored, fun _ _ stored => by simp at stored,
    fun _ _ marker => by simp at marker⟩
  tick _ created := created
  journal created stamped journal := journal.hooksCreated stamped.ofRun created
  quiet created quiet := ⟨fun id hook stored => created.owner id hook (quiet.hooks.some stored),
    fun id hook stored => created.hooks id hook (quiet.hooks.some stored),
    fun id eventId marker => created.marked id eventId (quiet.hookEvent ▸ marker)⟩

/-- The creation found through its marker is an event of the history. -/
theorem LogState.createdEvent {id : String} {data : HookCreatedData} (log : LogState W runId store history)
    (created : HooksCreated runId store history) (marked : store.createdEvent id = some data) :
    ∃ event ∈ history, event.data = .hookCreated id data := by
  obtain ⟨eventId, marker, found⟩ := Option.bind_eq_some_iff.mp marked
  obtain ⟨event, stored, matching⟩ := Option.bind_eq_some_iff.mp found
  obtain ⟨origin, member, same, written, creates⟩ := created.marked id eventId marker
  have kept : origin ∈ store.log W := log.log ▸ member
  obtain ⟨key, at_key⟩ := log.dense.mem_entries_iff.mp kept
  obtain rfl : eventId = key := same.symm.trans (log.stored key origin at_key).1
  obtain rfl : origin = event := Option.some.inj (at_key.symm.trans stored)
  rw [creates] at matching
  obtain rfl : written = data := Option.some.inj matching
  exact ⟨origin, member, creates⟩

theorem fenceHookClaim_fences {shared claimId : String} {cancellation : HookClaimCancellation}
    (fenced : claimId ∈ [eventClaimId (some shared) shared, eventClaimId none shared]) :
    claimId ∈ (fenceHookClaim store shared cancellation).hookClaimCancelled := by
  simp only [List.mem_cons, List.not_mem_nil, or_false] at fenced
  rcases fenced with rfl | rfl
  · exact Std.ExtTreeMap.mem_insert.mpr (.inr Std.ExtTreeMap.mem_insert_self)
  · exact Std.ExtTreeMap.mem_insert_self

namespace HookResolver
variable {resolver : HookResolver} {claimId : String}

/-- A call that answers that the creation has not committed fences it, unless the run is over. -/
theorem refused (answered : resolver.answer now store = some false) (fenced : claimId ∈ resolver.fenced) :
    (resolver.op.run W runId now store).Blocks now claimId := by
  cases resolver with
  | claim hookId token exact =>
    obtain rfl := List.mem_singleton.mp fenced
    simp only [answer, Option.some.injEq] at answered
    simp only [op, CellOp.run]
    unfold WorkflowRunDO.resolveHookTokenClaim at answered ⊢
    split at answered
    · rename_i expired
      rw [if_pos expired]
      exact .inl (.inr expired)
    rename_i unexpired
    split at answered
    · cases answered
    rename_i absent
    rw [if_neg unexpired, if_neg absent]
    exact .inr Std.ExtTreeMap.mem_insert_self
  | expired hookId shared token =>
    simp only [answer] at answered
    simp only [op, CellOp.run]
    unfold WorkflowRunDO.resolveExpiredHookClaim at answered ⊢
    split at answered
    · cases answered
    rename_i valid
    rw [if_neg valid]
    split at answered
    · rename_i expired
      rw [if_pos expired]
      exact .inl (.inr expired)
    rename_i unexpired
    rw [if_neg unexpired]
    split at answered
    · rename_i terminal
      rw [if_pos terminal]
      exact .inl (.inl terminal)
    rename_i active
    rw [if_neg active]
    split at answered
    · cases answered
    rename_i absent
    exact .inr (fenceHookClaim_fences fenced)
  | forced request =>
    simp only [answer] at answered
    simp only [op, CellOp.run]
    unfold WorkflowRunDO.resolveForcedHookClaim at answered ⊢
    split at answered
    · cases answered
    rename_i valid
    rw [if_neg valid]
    split at answered
    · rename_i expired
      rw [if_pos expired]
      exact .inl (.inr expired)
    rename_i unexpired
    rw [if_neg unexpired]
    unfold CelldWorld.resolveForcedHookClaim at answered ⊢
    simp only at answered ⊢
    split at answered
    · cases answered
    rename_i unjournaled
    rw [if_neg unjournaled]
    exact .inr (fenceHookClaim_fences fenced)

/-- A call that answers that the creation has committed leaves the cell as it is, and an event
of the history is that creation. -/
theorem committed (reach : CellReach W runId (· ≤ ·) earlier store history)
    (answered : resolver.answer now store = some true) :
    resolver.op.run W runId now store = store ∧ ∃ event ∈ history, resolver.Created event := by
  have found (unexpired : ¬ (store.tombstoneFrom now).isSome) : store.beforePayload = true :=
    RunStore.beforePayload_of_unexpired (Option.not_isSome_iff_eq_none.mp unexpired)
  have created (unexpired : ¬ (store.tombstoneFrom now).isSome) : HooksCreated runId store history :=
    (((hooksCreated_invariant W runId (· ≤ ·)).reach reach).1 (found unexpired)).2
  cases resolver with
  | claim hookId token exact =>
    simp only [answer, Option.some.injEq] at answered
    simp only [op, CellOp.run]
    unfold WorkflowRunDO.resolveHookTokenClaim at answered ⊢
    split at answered
    · cases answered
    rename_i unexpired
    split at answered
    · rename_i present
      rw [if_neg unexpired, if_pos present]
      obtain ⟨hook, stored, matching⟩ := (Option.any_eq_true _ _).mp present
      obtain ⟨event, member, data, creates, same⟩ := (created unexpired).hooks hookId hook stored
      exact ⟨rfl, event, member, data, creates, same.trans (of_decide_eq_true matching)⟩
    · cases answered
  | expired hookId shared token =>
    simp only [answer] at answered
    simp only [op, CellOp.run]
    unfold WorkflowRunDO.resolveExpiredHookClaim at answered ⊢
    split at answered
    · cases answered
    rename_i valid
    rw [if_neg valid]
    split at answered
    · cases answered
    rename_i unexpired
    rw [if_neg unexpired]
    split at answered
    · cases answered
    rename_i active
    rw [if_neg active]
    split at answered
    · rename_i hook present
      obtain ⟨stored, matching⟩ := Option.filter_eq_some_iff.mp present
      obtain ⟨event, member, data, creates, same⟩ := (created unexpired).hooks hookId hook stored
      refine ⟨rfl, event, member, data, creates, fun wanted asked => ?_⟩
      rw [Option.mem_def.mp asked, Option.all_some] at matching
      exact same.trans (of_decide_eq_true matching)
    · cases answered
  | forced request =>
    simp only [answer] at answered
    simp only [op, CellOp.run]
    unfold WorkflowRunDO.resolveForcedHookClaim at answered ⊢
    split at answered
    · cases answered
    rename_i valid
    rw [if_neg valid]
    split at answered
    · cases answered
    rename_i unexpired
    rw [if_neg unexpired]
    unfold CelldWorld.resolveForcedHookClaim at answered ⊢
    simp only at answered ⊢
    split at answered
    · rename_i journaled
      rw [if_pos journaled]
      obtain ⟨data, marked, matching⟩ := (Option.any_eq_true _ _).mp journaled
      obtain ⟨event, member, creates⟩ :=
        (reach.logState (found unexpired)).createdEvent (created unexpired) marked
      exact ⟨rfl, event, member, data, creates, of_decide_eq_true matching⟩
    · cases answered

end HookResolver

/-- The answer to whether a hook was created is final. Where it says so, the creation stays in
every later log; where it denies it, no creation with a claim ID it fenced changes the cell any more. -/
theorem hookResolution_final {resolver : HookResolver} {committed : Bool}
    (reach : CellReach W runId (· ≤ ·) earlier store history) (tick : earlier ≤ now)
    (answered : resolver.answer now store = some committed)
    (follows : CellLater W runId now (resolver.op.run W runId now store)
      (history ++ appended W store (resolver.op.run W runId now store)) later last events) :
    match committed with
    | true => ∃ event ∈ history, resolver.Created event ∧ (last.beforePayload = true → event ∈ last.log W)
    | false => ∀ claimId ∈ resolver.fenced, claimId ≠ "" → ∀ moment ≥ later, ∀ request hookId eventData,
        request.data.data = .hookCreated hookId eventData → request.hookClaimId = some claimId →
        (CellOp.applyEvent request).run W runId moment last = last := by
  have next : CellReach W runId (· ≤ ·) now (resolver.op.run W runId now store)
      (history ++ appended W store (resolver.op.run W runId now store)) := .next resolver.op reach tick
  cases committed with
  | true =>
    obtain ⟨same, event, member, creates⟩ := HookResolver.committed reach answered
    refine ⟨event, member, creates, fun before => ?_⟩
    rw [((follows.reach next).logState before).log]
    exact follows.keeps (List.mem_append_left _ member)
  | false =>
    intro claimId fenced named moment later request hookId eventData creates carries
    have blocks : (resolver.op.run W runId now store).Blocks now claimId := HookResolver.refused answered fenced
    exact ((follows.blocks next blocks).tick later).refuses creates carries named

/-- A creation that is fenced stays refused after the run has created the same hook under another
claim, and that creation stays in the log after its hook was disposed. -/
theorem hookResolution_final_disposed :
    let started := CellOp.run .unary "run" 7 (.resilientStart "run" "deployment" "workflow" (.string "input")) {}
    let resolved := CellOp.run .unary "run" 8 (.resolveExpiredHookClaim "hook" "claim" (some "token")) started
    let created := CellOp.run .unary "run" 9 (.createHook "run" "hook" "token" none) resolved
    let disposed := CellOp.run .unary "run" 11 (.disposeHook "run" "hook") created
    (∀ request hookId eventData, request.data.data = .hookCreated hookId eventData →
      request.hookClaimId = some "claim:claim" →
        CellOp.run .unary "run" 10 (.applyEvent request) created = created) ∧
    disposed.hooks["hook"]? = none ∧
    ∃ event ∈ disposed.log .unary, (HookResolver.claim "hook" "token" "later").Created event := by
  intro started resolved created disposed
  have start : CellReach .unary "run" (· ≤ ·) 7 started _ := .next _ (.start 0) (Nat.zero_le 7)
  have resolve : CellReach .unary "run" (· ≤ ·) 8 resolved _ := .next _ start (Nat.le_succ 7)
  have create : CellReach .unary "run" (· ≤ ·) 9 created _ := .next _ resolve (Nat.le_succ 8)
  have denied : (HookResolver.expired "hook" "claim" (some "token")).answer 8 started = some false := by
    decide +kernel
  have committed : (HookResolver.claim "hook" "token" "later").answer 10 created = some true := by decide +kernel
  refine ⟨?_, by decide +kernel, ?_⟩
  · intro request hookId eventData creates carries
    exact hookResolution_final start (Nat.le_succ 7) denied (.next _ .start (Nat.le_succ 8))
      "claim:claim" (.head _)
      (by decide) 10 (Nat.le_succ 9) request hookId eventData creates carries
  · obtain ⟨event, -, creates, kept⟩ := hookResolution_final create (Nat.le_succ 9) committed
      (.next (.disposeHook "run" "hook") .start (Nat.le_succ 10))
    exact ⟨event, kept (by decide +kernel), creates⟩

end CelldWorld
