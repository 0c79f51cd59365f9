import CelldWorld.HookReplay
import CelldWorld.SpecVersions

namespace CelldWorld

/-- The resume ID that an event records; an empty one counts as none. -/
def Event.resumes (event : Event) : Option String :=
  if event.data.isHookReceived then truthy event.resumeId else none

/-- A delivery of a resume: its hook, its resume ID and its digest, if it has one. -/
structure ApplyEventRequest.Delivers (request : ApplyEventRequest) (hookId resumeId : String)
    (digest : Option String) : Prop where
  received : ∃ payload, request.data.data = .hookReceived hookId payload
  resumeId : truthy (request.params.bind (·.resumeId)) = some resumeId
  digest : truthy (request.params.bind (·.resumePayloadDigest)) = digest

/-- Two deliveries may carry the same payload unless both digests say otherwise. -/
def compatible (recorded supplied : Option String) : Bool :=
  match recorded, supplied with
  | some recorded, some supplied => recorded = supplied
  | _, _ => true

/-- The claims of resume IDs and the events that they point to. -/
structure ResumeState (store : RunStore) (history : List Event) : Prop where
  claimed : ∀ (resumeId : String) claim, store.hookResume[resumeId]? = some claim →
    ∃ event ∈ history, event.eventId = claim.eventId ∧ event.recordsResume claim.hookId resumeId = true
  recorded : ∀ event ∈ history, ∀ resumeId, event.resumes = some resumeId →
    ∃ hookId digest, store.hookResume[resumeId]? = some ⟨hookId, event.eventId, digest⟩
  once : ∀ resumeId, (history.filter fun event => event.resumes = some resumeId).length ≤ 1

section Invariant
variable {W : WorldContract} {runId : String} {now : Nat} {before after : RunStore} {event : Event}
variable {history : List Event}

/-- Every event of the history is stored under its ID. -/
theorem LogState.stored_of_mem (log : LogState W runId before history) (member : event ∈ history) :
    before.events[event.eventId]? = some event := by
  rw [← log.log] at member
  obtain ⟨id, stored⟩ := log.dense.mem_entries_iff.mp member
  rwa [(log.stored id event stored).1]

/-- An unclaimed resume ID has no claim at all, since every claim's event is stored. -/
theorem ResumeState.unclaimed {resumeId : String} (state : ResumeState before history)
    (log : LogState W runId before history) (unclaimed : before.Unclaimed resumeId) :
    before.hookResume[resumeId]? = none := by
  cases claimed : before.hookResume[resumeId]? with
  | none => rfl
  | some claim =>
    obtain ⟨event, member, same, -⟩ := state.claimed resumeId claim claimed
    have stored := log.stored_of_mem member
    rw [same] at stored
    cases (unclaimed claim claimed).symm.trans stored

theorem ResumeState.frame (state : ResumeState before history) (claims : after.hookResume = before.hookResume)
    (other : event.resumes = none) : ResumeState after (history ++ [event]) where
  claimed resumeId claim claimed := by
    rw [claims] at claimed
    obtain ⟨found, member, same⟩ := state.claimed resumeId claim claimed
    exact ⟨found, List.mem_append_left _ member, same⟩
  recorded found member resumeId resumed := by
    rw [claims]
    rcases List.mem_append.mp member with old | new
    · exact state.recorded found old resumeId resumed
    · obtain rfl := List.mem_singleton.mp new
      cases other.symm.trans resumed
  once resumeId := by
    rw [List.filter_append, List.length_append]
    simpa [other] using state.once resumeId

/-- A resume ID is claimed by the first event that records it. -/
theorem ResumeState.claim {hookId resumeId : String} {payload : Value} {digest : Option String}
    (state : ResumeState before history) (absent : before.hookResume[resumeId]? = none)
    (data : event.data = .hookReceived hookId payload) (resumed : truthy event.resumeId = some resumeId)
    (claims : after.hookResume = before.hookResume.insert resumeId ⟨hookId, event.eventId, digest⟩) :
    ResumeState after (history ++ [event]) := by
  have resumes : event.resumes = some resumeId := by
    rw [Event.resumes, data]
    exact resumed
  have fresh : ∀ earlier ∈ history, earlier.resumes ≠ some resumeId := by
    intro earlier member same
    obtain ⟨_, _, claimed⟩ := state.recorded earlier member resumeId same
    cases absent.symm.trans claimed
  refine ⟨fun other claim claimed => ?_, fun found member other records => ?_, fun other => ?_⟩
  · rw [claims, Std.ExtTreeMap.getElem?_insert] at claimed
    split at claimed
    · rename_i same
      obtain rfl := Std.LawfulEqCmp.eq_of_compare same
      obtain rfl := Option.some.inj claimed
      refine ⟨event, by simp, rfl, ?_⟩
      simp [Event.recordsResume, data, (truthy_eq_some.mp resumed).1]
    · obtain ⟨found, member, same⟩ := state.claimed other claim claimed
      exact ⟨found, List.mem_append_left _ member, same⟩
  · rw [claims, Std.ExtTreeMap.getElem?_insert]
    rcases List.mem_append.mp member with old | new
    · obtain ⟨target, recorded, claimed⟩ := state.recorded found old other records
      rw [if_neg]
      · exact ⟨target, recorded, claimed⟩
      · intro same
        rw [Std.LawfulEqCmp.eq_of_compare same] at absent
        cases absent.symm.trans claimed
    · obtain rfl := List.mem_singleton.mp new
      obtain rfl := Option.some.inj (resumes.symm.trans records)
      exact ⟨hookId, digest, by simp⟩
  · rw [List.filter_append, List.length_append]
    by_cases same : other = resumeId
    · subst same
      have none_before : history.filter (fun event => event.resumes = some other) = [] := by
        simpa using fresh
      simp [none_before, resumes]
    · have apart : event.resumes ≠ some other := by
        rw [resumes]
        exact fun equal => same (Option.some.inj equal).symm
      simpa [apart] using state.once other

theorem Journal.resumeState (journal : Journal W before event after)
    (log : LogState W runId before history) (state : ResumeState before history) :
    ResumeState after (history ++ [event]) := by
  cases journal with
  | hookReceived data current stored claims =>
    rcases claims with ⟨absent, rfl⟩ | ⟨resumeId, digest, resumed, unclaimed, rfl⟩
    · exact state.frame rfl (by rw [Event.resumes, absent, ite_self])
    · exact state.claim (state.unclaimed log unclaimed) data resumed rfl
  | runFinished known | stepUpdated known =>
    refine state.frame rfl ?_
    cases data : event.data <;> simp [data, Event.endsAs, Event.stepUpdate] at known <;>
      simp [Event.resumes, data, EventData.isHookReceived]
  | runCreated data | runStarted data | runCancelledAgain data | attrSet data | stepCreated data
  | hookConflict data | hookCreated data | hookDisposed data | hookForced data | waitCreated data
  | waitCompleted data =>
    exact state.frame rfl (by simp [Event.resumes, data, EventData.isHookReceived])

theorem resumeState_invariant (W : WorldContract) (runId : String) (clock : Nat → Nat → Prop) :
    CellInvariant W runId clock fun _ store history =>
      LogState W runId store history ∧ ResumeState store history where
  start now := ⟨(logState_invariant W runId clock).start now, ⟨fun _ _ claimed => by simp at claimed,
    fun _ member => (by cases member), fun _ => Nat.zero_le 1⟩⟩
  tick _ state := state
  journal state stamped journal :=
    ⟨(logState_invariant W runId clock).journal state.1 stamped journal, journal.resumeState state.1 state.2⟩
  quiet {now before after history} state quiet := by
    refine ⟨@(logState_invariant W runId clock).quiet now before after history state.1 quiet, ?_⟩
    obtain ⟨claimed, recorded, once⟩ := state.2
    constructor <;> first | rw [quiet.hookResume]; assumption | exact once

/-- No journaled event touches the claim of another. -/
theorem Journal.keepsClaims {resumeId : String} {claim : HookResumeClaim}
    (journal : Journal W before event after) (log : LogState W runId before history)
    (state : ResumeState before history) (claimed : before.hookResume[resumeId]? = some claim) :
    after.hookResume[resumeId]? = some claim := by
  cases journal with
  | hookReceived data current stored claims =>
    rcases claims with ⟨-, rfl⟩ | ⟨target, digest, -, unclaimed, rfl⟩
    · exact claimed
    · have absent := state.unclaimed log unclaimed
      change (before.hookResume.insert target _)[resumeId]? = some claim
      rw [Std.ExtTreeMap.getElem?_insert, if_neg]
      · exact claimed
      · intro same
        rw [Std.LawfulEqCmp.eq_of_compare same] at absent
        cases absent.symm.trans claimed
  | _ => exact claimed

theorem Journals.keepsClaims {resumeId : String} {claim : HookResumeClaim} {events : List Event}
    (journals : Journals W runId now before events after)
    (state : LogState W runId before history ∧ ResumeState before history)
    (claimed : before.hookResume[resumeId]? = some claim) :
    (LogState W runId after (history ++ events) ∧ ResumeState after (history ++ events)) ∧
      after.hookResume[resumeId]? = some claim := by
  induction journals with
  | start => exact ⟨by rwa [List.append_nil], claimed⟩
  | next _ stamped journal ih =>
    obtain ⟨held, kept⟩ := ih
    rw [← List.append_assoc]
    exact ⟨(resumeState_invariant W runId fun _ _ => True).journal held stamped journal,
      journal.keepsClaims held.1 held.2 kept⟩

end Invariant

section Deliveries
variable {W : WorldContract} {ctx : ApplyEventContext} {txn txn' : EventTxn} {id : String} {payload : Value}
variable {success : ApplyEventSuccess}

/-- A `hook_received` is held up by the spec versions and by the guards after the
terminal-run guard only. -/
theorem applyEvent_hookReceived (request : ctx.data.data = .hookReceived id payload)
    (notChild : W.isChildEntityCreationEvent (.hookReceived id payload) = false)
    (supported : ctx.specVersion W = W.specVersionCurrent)
    (current : ∀ run, txn.store.run = some run → run.specVersion = W.specVersionCurrent) :
    applyEvent W true ctx txn = ctx.applyGuarded W true txn.store.run none txn := by
  have boot : ctx.bootstrapRun W txn.store.run txn = .ok (txn.store.run, none, txn) := by
    unfold ApplyEventContext.bootstrapRun ApplyEventContext.bootstrapData
    simp only [request]
    cases txn.store.run <;> rfl
  have skip : ctx.skipRunValidation = false := by simp [ApplyEventContext.skipRunValidation, request]
  unfold applyEvent
  rw [if_neg (by simpa using supported)]
  simp only [skip, Bool.false_eq_true, if_false, boot]
  cases stored : txn.store.run with
  | none => rfl
  | some run =>
    have passes : ctx.terminalRunGuard W run txn = .ok (none, txn) := by
      unfold ApplyEventContext.terminalRunGuard
      split
      · rfl
      · simp [request, notChild]
    simp only [bind, Except.bind, current run stored, ne_eq, not_true_eq_false, if_false, passes]

theorem ApplyEventContext.applyGuarded_received {currentRun : Option WorkflowRun}
    (request : ctx.data.data = .hookReceived id payload) :
    ctx.applyGuarded W true currentRun none txn = match hookResumeGuard txn.store ctx with
      | some outcome => .ok (outcome, txn)
      | none => match hookGuard txn.store currentRun (.hookReceived id payload) with
        | some outcome => .ok (outcome, txn)
        | none => if currentRun = none then .ok (ctx.runNotFound, txn) else ctx.applyHookReceived W id txn := by
  have noStep : stepGuard W txn.store currentRun ctx.data.data = .ok none := by rw [request]; rfl
  have reads : ctx.skipRunValidation = false ∧ ctx.isRunStarted = false ∧ currentRun = none ↔
      currentRun = none := by
    simp [skipRunValidation, isRunStarted, request]
  have writes : ctx.applyWrites W true currentRun none none txn = ctx.applyHookReceived W id txn := by
    unfold applyWrites
    rw [request]
  unfold applyGuarded
  rw [noStep, request]
  cases hookResumeGuard txn.store ctx with
  | some outcome => rfl
  | none =>
    cases hookGuard txn.store currentRun (.hookReceived id payload) with
    | some outcome => rfl
    | none => exact if_congr reads rfl writes

/-- A delivery is answered from the claim of its resume ID. -/
theorem hookResumeGuard_claimed {store : RunStore} {resumeId : String} {claim : HookResumeClaim}
    {event : Event}
    (request : ctx.data.data = .hookReceived id payload) (resume : truthy ctx.resumeId = some resumeId)
    (claimed : store.hookResume[resumeId]? = some claim) (stored : store.events[claim.eventId]? = some event)
    (records : event.recordsResume claim.hookId resumeId = true) :
    ∃ outcome, hookResumeGuard store ctx = some outcome ∧
      (if id = claim.hookId ∧ compatible (truthy claim.payloadDigest) (truthy ctx.resumePayloadDigest) = true
        then outcome = .ok { event := some event }
        else ∃ message, outcome = failure .entityConflict message) := by
  have committed : hookResumeGuard.committedResume store claim resumeId = some (.ok { event := some event }) := by
    simp [hookResumeGuard.committedResume, stored, records]
  unfold hookResumeGuard
  simp only [request, resume, claimed]
  by_cases same : id = claim.hookId
  · rw [if_neg (by simp [same])]
    cases held : truthy claim.payloadDigest with
    | none => exact ⟨_, committed, by simp [same, compatible]⟩
    | some recorded =>
      cases given : truthy ctx.resumePayloadDigest with
      | none => exact ⟨_, committed, by simp [same, compatible]⟩
      | some supplied =>
        by_cases equal : recorded = supplied
        · refine ⟨.ok { event := some event }, ?_, by simp [same, compatible, equal]⟩
          simp only [equal, ne_eq, not_true_eq_false, if_false]
          exact committed
        · simp only [ne_eq, equal, not_false_eq_true, if_true, compatible, decide_false, Bool.false_eq_true,
            and_false, if_false]
          exact ⟨_, rfl, _, rfl⟩
  · rw [if_pos fun equal => same equal.symm]
    simp only [same, false_and, if_false]
    exact ⟨_, rfl, _, rfl⟩

/-- A delivery that stores an event claims its resume ID for it. -/
theorem applyEvent_claims {resumeId : String} {event : Event}
    (request : ctx.data.data = .hookReceived id payload)
    (notChild : W.isChildEntityCreationEvent (.hookReceived id payload) = false)
    (current : ∀ run, txn.store.run = some run → run.specVersion = W.specVersionCurrent)
    (resume : truthy ctx.resumeId = some resumeId)
    (run : applyEvent W true ctx txn = .ok (.ok success, txn'))
    (fresh : txn.store.events[event.eventId]? = none)
    (stored : txn'.store.events[event.eventId]? = some event) :
    txn'.store.hookResume[resumeId]? = some ⟨id, event.eventId, truthy ctx.resumePayloadDigest⟩ := by
  rw [applyEvent_hookReceived request notChild (applyEvent_supported run) current,
    ApplyEventContext.applyGuarded_received request] at run
  split at run
  · obtain ⟨-, rfl⟩ := Prod.mk.inj (Except.ok.inj run)
    cases fresh.symm.trans stored
  split at run
  · obtain ⟨-, rfl⟩ := Prod.mk.inj (Except.ok.inj run)
    cases fresh.symm.trans stored
  split at run
  · obtain ⟨-, rfl⟩ := Prod.mk.inj (Except.ok.inj run)
    cases fresh.symm.trans stored
  unfold ApplyEventContext.applyHookReceived at run
  obtain ⟨⟨built, middle⟩, build, run⟩ := bind_ok.mp run
  obtain ⟨-, rfl⟩ := ApplyEventContext.buildEvent_ok build
  simp only [resume] at run
  cases run
  have stored : (txn.store.events.insert built.eventId built)[event.eventId]? = some event := stored
  rw [Std.ExtTreeMap.getElem?_insert] at stored
  split at stored
  · obtain rfl := Option.some.inj stored
    exact Std.ExtTreeMap.getElem?_insert_self
  · cases fresh.symm.trans stored

end Deliveries

/-- Completing the event page keeps the event of a success. -/
theorem finalizeEventPage_event {W : WorldContract} {store : RunStore} {success : ApplyEventSuccess}
    {params : Option CreateEventParams} :
    ∃ finished, finalizeEventPage W store (.ok success) params = .ok finished ∧
      finished.event = success.event := by
  set result := if success.run.isSome ∧ success.maxEvents = none then
    { success with maxEvents := some W.getMaxEventsPerRun } else success with completed
  have kept : result.event = success.event := by
    rw [completed]
    split <;> rfl
  unfold finalizeEventPage
  simp only [← completed]
  split
  · exact ⟨_, rfl, kept⟩
  · exact ⟨_, rfl, kept⟩
  · split
    · refine ⟨_, rfl, Eq.trans ?_ kept⟩
      unfold attachHookReplayPreload
      split
      · rfl
      · split
        · rfl
        · simp only
          split <;> rfl
    · split
      · exact ⟨_, rfl, kept⟩
      · exact ⟨_, rfl, kept⟩
      · refine ⟨_, rfl, Eq.trans ?_ kept⟩
        unfold attachSkippedEvents
        split
        · rfl
        · split <;> rfl

/-- The answer to a delivery of a recorded resume. -/
def RedeliveryAnswer (event : Event) (accepted : Prop) (outcome : ApplyEventOutcome) : Prop :=
  (accepted ∧ ∃ success, outcome = .ok success ∧ success.event = some event) ∨
    ¬ accepted ∧ ∃ message, outcome = failure .entityConflict message

/-- A delivery of a claimed resume ID is answered from the claim and leaves the cell alone. -/
theorem WorkflowRunDO.applyEvent_redelivered {W : WorldContract} {runId : String} {now : Nat}
    {store : RunStore} {request : ApplyEventRequest} {hookId id resumeId : String}
    {digest supplied : Option String} {event : Event}
    (notChild : ∀ id payload, W.isChildEntityCreationEvent (.hookReceived id payload) = false)
    (current : ∀ run, store.run = some run → run.specVersion = W.specVersionCurrent)
    (claimed : store.hookResume[resumeId]? = some ⟨hookId, event.eventId, digest⟩)
    (stored : store.events[event.eventId]? = some event)
    (records : event.recordsResume hookId resumeId = true)
    (delivers : request.Delivers id resumeId supplied)
    (admitted : request.admitted W runId now store = true)
    (supported : request.data.specVersion.getD W.specVersionCurrent = W.specVersionCurrent) :
    ∃ outcome, applyEvent W runId now request store = .ok (outcome, store) ∧
      RedeliveryAnswer event (id = hookId ∧ compatible (truthy digest) supplied = true) outcome := by
  obtain ⟨⟨payload, received⟩, resume, given⟩ := delivers
  set ctx : ApplyEventContext := { request with now } with context
  have received : ctx.data.data = .hookReceived id payload := received
  have version : ctx.specVersion W = W.specVersionCurrent := supported
  obtain ⟨answer, guarded, answers⟩ := hookResumeGuard_claimed received resume claimed stored records
  have applied : CelldWorld.applyEvent W true ctx ⟨store, store.eventSequence⟩ =
      .ok (answer, ⟨store, store.eventSequence⟩) := by
    rw [applyEvent_hookReceived received (notChild id payload) version current,
      ApplyEventContext.applyGuarded_received received]
    simp only [guarded]
  have given : truthy ctx.resumePayloadDigest = supplied := given
  rw [given] at answers
  rw [applyEvent_of_admitted admitted, applied]
  split at answers
  · rename_i accepted
    subst answers
    obtain ⟨finished, page, kept⟩ := @finalizeEventPage_event W store { event := some event } request.params
    refine ⟨.ok finished, ?_, .inl ⟨accepted, finished, rfl, kept⟩⟩
    simp [bind, Except.bind, commitOutcome, EventTxn.persist, recordClaimScope, putHookReferences,
      scheduleTerminalRetention, startTerminalCleanup, setPublicationDeadline, page]
  · rename_i refused
    obtain ⟨message, rfl⟩ := answers
    exact ⟨_, rfl, .inr ⟨refused, message, rfl⟩⟩

/-- The event of a run's history was journaled by the request, now or earlier. -/
inductive JournaledBy (W : WorldContract) (runId : String) (clock : Nat → Nat → Prop)
    (request : ApplyEventRequest) (event : Event) : Nat → RunStore → List Event → Prop
  | first {earlier now : Nat} {store : RunStore} {history : List Event}
      (reach : CellReach W runId clock earlier store history) (tick : clock earlier now)
      (appends : event ∈ appended W store (CellOp.run W runId now (.applyEvent request) store)) :
      JournaledBy W runId clock request event now (CellOp.run W runId now (.applyEvent request) store)
        (history ++ appended W store (CellOp.run W runId now (.applyEvent request) store))
  | later {earlier now : Nat} {store : RunStore} {history : List Event} (op : CellOp)
      (journaled : JournaledBy W runId clock request event earlier store history) (tick : clock earlier now) :
      JournaledBy W runId clock request event now (op.run W runId now store)
        (history ++ appended W store (op.run W runId now store))

/-- A journaled resume is the delivery of its own resume ID. -/
theorem ApplyEventContext.MayJournal.delivers {W : WorldContract} {request : ApplyEventRequest} {now : Nat}
    {event : Event} {resumeId : String}
    (records : ApplyEventContext.MayJournal W { request with now } event)
    (resumes : event.resumes = some resumeId) :
    ∃ hookId, request.Delivers hookId resumeId (truthy (request.params.bind (·.resumePayloadDigest))) := by
  unfold Event.resumes at resumes
  split at resumes
  swap
  · cases resumes
  rename_i received
  have carried : event.resumeId = request.params.bind (·.resumeId) := by
    rw [records.resumeId, if_pos received]
    rfl
  have data := records.data
  cases kind : request.data.data with
  | hookReceived hookId payload => exact ⟨hookId, ⟨payload, kind⟩, by rwa [← carried], rfl⟩
  | hookCreated =>
    simp only [kind] at data
    rcases data with ⟨_, same⟩ | ⟨_, _, _, same⟩ <;> rw [same] at received <;> cases received
  | runStarted | stepStarted =>
    simp only [kind] at data
    rcases data with same | ⟨_, same⟩ <;> rw [same] at received <;> cases received
  | _ =>
    simp only [kind] at data
    rw [data] at received
    cases received

section Runs
variable {W : WorldContract} {runId : String} {clock : Nat → Nat → Prop} {now : Nat} {store : RunStore}
variable {history : List Event}

/-- A delivery that appends its event claims its resume ID for it, with its digest. -/
theorem CellReach.claims {request : ApplyEventRequest} {event : Event} {hookId resumeId : String}
    {digest : Option String} {later : Nat} (reach : CellReach W runId clock now store history)
    (notChild : ∀ id payload, W.isChildEntityCreationEvent (.hookReceived id payload) = false)
    (before : store.beforePayload = true) (delivers : request.Delivers hookId resumeId digest)
    (member : event ∈ appended W store (CellOp.run W runId later (.applyEvent request) store)) :
    (CellOp.run W runId later (.applyEvent request) store).hookResume[resumeId]? =
      some ⟨hookId, event.eventId, digest⟩ := by
  obtain ⟨cleans, log⟩ := ((logState_invariant W runId clock).reach reach).1 before
  obtain ⟨stored, fresh⟩ := CellOp.gained before cleans log.dense member
  obtain ⟨⟨payload, received⟩, resume, given⟩ := delivers
  cases call : WorkflowRunDO.applyEvent W runId later request store with
  | error =>
    simp only [CellOp.run, call, transaction] at stored
    cases fresh.symm.trans stored
  | ok answer =>
    simp only [CellOp.run, call, transaction] at stored ⊢
    rcases WorkflowRunDO.applyEvent_ok call with ⟨-, same⟩ | ⟨success, txn, ofRun, -, applied, commit⟩
    · rw [same] at stored
      cases fresh.symm.trans stored
    · have quiet := WorkflowRunDO.commitOutcome_quiet (applyEvent_answers applied) commit
      rw [quiet.events] at stored
      have resume : truthy (ApplyEventContext.resumeId { request with now := later }) = some resumeId := resume
      rw [quiet.hookResume, ← given]
      exact applyEvent_claims received (notChild hookId payload)
        (fun run current => reach.run_current before current) resume applied fresh stored

/-- Every recorded resume was journaled by a delivery, whose claim still stands. -/
theorem CellReach.resumed (reach : CellReach W runId clock now store history)
    (notChild : ∀ id payload, W.isChildEntityCreationEvent (.hookReceived id payload) = false) :
    ∀ event ∈ history, ∀ resumeId, event.resumes = some resumeId →
      ∃ first hookId digest, JournaledBy W runId clock first event now store history ∧
        first.Delivers hookId resumeId digest ∧
        (store.beforePayload = true → store.hookResume[resumeId]? = some ⟨hookId, event.eventId, digest⟩) := by
  induction reach with
  | start =>
    intro event member
    cases member
  | @next earlier now store history op reach tick ih =>
    intro event member resumeId resumes
    rcases List.mem_append.mp member with old | new
    · obtain ⟨first, hookId, digest, journaled, delivers, claimed⟩ := ih event old resumeId resumes
      refine ⟨first, hookId, digest, .later op journaled tick, delivers, fun after => ?_⟩
      cases before : store.beforePayload with
      | false =>
        rw [(CellOp.run_remains W runId now op before).payload] at after
        cases after
      | true =>
        obtain ⟨cleans, state⟩ := ((resumeState_invariant W runId clock).reach reach).1 before
        obtain ⟨events, middle, journals, quiet⟩ := op.run_transition W runId now before cleans
        rw [quiet.hookResume]
        exact (journals.keepsClaims state (claimed before)).2
    · cases before : store.beforePayload with
      | false =>
        rw [(CellOp.run_remains W runId now op before).appended] at new
        cases new
      | true =>
        cases reach.origin new with
        | forced hookId token claimedBy data => simp [Event.resumes, data, EventData.isHookReceived] at resumes
        | request request ctx same parsed supported records =>
          subst same
          obtain ⟨hookId, delivers⟩ := records.delivers resumes
          exact ⟨request, hookId, _, .first reach tick new, delivers, fun _ =>
            reach.claims notChild before delivers new⟩

end Runs

/-- A resume is journaled once: every later delivery of it is answered from the event,
or refused where its hook or its digest differs from that of the first delivery. -/
theorem hookResume_exactlyOnce {W : WorldContract} {runId : String} {clock : Nat → Nat → Prop} {now : Nat}
    {store : RunStore} {history : List Event}
    (notChild : ∀ id payload, W.isChildEntityCreationEvent (.hookReceived id payload) = false)
    (reach : CellReach W runId clock now store history) :
    (∀ resumeId, (history.filter fun event => event.resumes = some resumeId).length ≤ 1) ∧
    ∀ event ∈ history, ∀ resumeId, event.resumes = some resumeId →
      ∃ first hookId digest, JournaledBy W runId clock first event now store history ∧
        first.Delivers hookId resumeId digest ∧
        ∀ later request id supplied, request.Delivers id resumeId supplied →
          request.admitted W runId later store = true →
          request.data.specVersion.getD W.specVersionCurrent = W.specVersionCurrent →
          ∃ outcome, WorkflowRunDO.applyEvent W runId later request store = .ok (outcome, store) ∧
            RedeliveryAnswer event (id = hookId ∧ compatible digest supplied = true) outcome := by
  obtain ⟨invariant, time, last, -, state⟩ := (resumeState_invariant W runId clock).reach reach
  refine ⟨state.once, fun event member resumeId resumes => ?_⟩
  obtain ⟨first, hookId, digest, journaled, delivers, claimed⟩ :=
    reach.resumed notChild event member resumeId resumes
  refine ⟨first, hookId, digest, journaled, delivers,
    fun later request id supplied again admitted supported => ?_⟩
  have before : store.beforePayload = true := by
    cases before : store.beforePayload with
    | true => rfl
    | false =>
      obtain ⟨tombstone, expired⟩ := RunStore.tombstoneFrom_isSome before later
      simp [ApplyEventRequest.admitted, expired] at admitted
  obtain ⟨-, log, held⟩ := invariant before
  have stored := log.stored_of_mem member
  obtain ⟨found, found_member, same, records⟩ := held.claimed resumeId _ (claimed before)
  have found_stored := log.stored_of_mem found_member
  rw [same] at found_stored
  obtain rfl := Option.some.inj (stored.symm.trans found_stored)
  have answered := WorkflowRunDO.applyEvent_redelivered notChild
    (fun run current => reach.run_current before current) (claimed before) stored records again admitted supported
  have same : truthy digest = digest := by
    rw [← delivers.digest, truthy, truthy, Option.filter_filter]
    simp
  rwa [same] at answered

/-- A delivery to a hook, with its resume ID. -/
def CellOp.resumeHook (runId hookId resumeId : String) : CellOp :=
  .applyEvent
    { runId
      data := { specVersion := none, data := .hookReceived hookId (.string "payload") }
      params := some ⟨none, some resumeId, none, none, none, false, false⟩ }

/-- A run whose hook is resumed twice under one resume ID. -/
def resumedTwice (resumeId : String) : RunStore × List Event :=
  CellOp.runAll .unary "run" 1
    [.resilientStart "run" "deployment" "workflow" (.string "input"),
      .createHook "run" "hook" "token" none, .resumeHook "run" "hook" resumeId,
      .resumeHook "run" "hook" resumeId] ({}, [])

theorem resumedTwice_reach (resumeId : String) :
    CellReach .unary "run" (· ≤ ·) 1 (resumedTwice resumeId).1 (resumedTwice resumeId).2 :=
  .runAll _ (Nat.le_refl 1) (.start 1)

theorem hookResume_exactlyOnce_redelivered :
    ((resumedTwice "resume").2.filter fun event => event.resumes = some "resume").length = 1 :=
  Nat.le_antisymm ((hookResume_exactlyOnce (fun _ _ => rfl) (resumedTwice_reach "resume")).1 "resume")
    (by decide)

/-- An empty resume ID claims nothing, so its delivery is journaled every time. -/
theorem hookResume_empty_journaledTwice :
    ¬ ∀ W runId now store history, CellReach W runId (· ≤ ·) now store history → ∀ resumeId,
      (history.filter fun event => event.data.isHookReceived ∧ event.resumeId = some resumeId).length ≤ 1 :=
  fun claim => absurd (claim .unary "run" 1 _ _ (resumedTwice_reach "") "") (by decide)

end CelldWorld
