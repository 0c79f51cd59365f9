import CelldWorld.EventScan
import CelldWorld.HookResume
import CelldWorld.RunStatus
import CelldWorld.Spec.Answers

namespace CelldWorld

/-- The exclusive cursor behind the first events of a log. -/
def WorldContract.cursorAfter (W : WorldContract) (eventCount : Nat) : Option String :=
  if 0 < eventCount then some (W.slotToEventId eventCount) else none

/-- The stored events of the slots from a first one on. -/
def RunStore.slots (W : WorldContract) (store : RunStore) (first count : Nat) : List (Option Event) :=
  (List.range' first count).map fun slot => store.events[W.slotToEventId slot]?

variable {W : WorldContract} {runId : String} {store after : RunStore} {history : List Event}

theorem WorldContract.slotToEventId_ne {slot : Nat} (some_ : 0 < slot) : W.slotToEventId slot ≠ "" := by
  intro empty
  have later : W.slotToEventId 0 < W.slotToEventId slot := W.slotToEventId_lt some_
  rw [empty, String.lt_iff] at later
  exact List.not_lt_nil _ later

theorem WorldContract.compare_slots {earlier later : Nat} (less : earlier < later) :
    compare (W.slotToEventId earlier) (W.slotToEventId later) = .lt :=
  compareOfLessAndEq_eq_lt.mpr (W.slotToEventId_lt less)

theorem LogState.transition {now : Nat} (log : LogState W runId store history)
    (step : Transition W runId now store after) :
    ∃ extended, LogState W runId after extended := by
  obtain ⟨events, middle, journals, quiet⟩ := step
  have invariant := logState_invariant W runId fun _ _ => True
  have journaled := @CellInvariant.journals W runId (fun _ _ => True) now store middle history _ events
    invariant log journals
  exact ⟨history ++ events,
    @CellInvariant.quiet W runId (fun _ _ => True) _ invariant now middle after _ journaled quiet⟩

theorem listEventPage_done {events : KeyMap Event} {limit : Nat} {cursor : Option String}
    (done : (listEventPage events limit cursor).hasMore = false) :
    listEventPage events limit cursor = ⟨(listEventPage events limit cursor).events, none, false⟩ := by
  unfold listEventPage listByPrefix at done ⊢
  simp only at done ⊢
  rw [done]
  rfl

/-- A page of a dense log is the events of the slots behind its cursor. -/
theorem LogState.listEventPage (log : LogState W runId store history) (limit eventCount : Nat) :
    (CelldWorld.listEventPage store.events limit (W.cursorAfter eventCount)).events.map some =
        store.slots W (eventCount + 1) (min limit (store.eventSequence - eventCount)) ∧
      ((CelldWorld.listEventPage store.events limit (W.cursorAfter eventCount)).hasMore = true ↔
        limit < store.eventSequence - eventCount) := by
  have beyond : store.events.toList.filter (fun entry => (truthy (W.cursorAfter eventCount)).all (· < entry.1)) =
      store.events.toList.filter fun entry => compare (W.slotToEventId eventCount) entry.1 = .lt := by
    refine List.filter_congr fun entry member => ?_
    unfold WorldContract.cursorAfter
    split
    · rename_i some_
      rw [truthy_eq_some.mpr ⟨rfl, WorldContract.slotToEventId_ne some_⟩, Option.all_some]
      exact decide_eq_decide.mpr compareOfLessAndEq_eq_lt.symm
    · rename_i start
      obtain rfl : eventCount = 0 := by omega
      have stored := Std.ExtTreeMap.mem_toList_iff_getElem?_eq_some.mp member
      obtain ⟨slot, some_, -, same⟩ :=
        (log.dense entry.1).mp (Std.ExtTreeMap.mem_iff_isSome_getElem?.mpr (by rw [stored]; rfl))
      rw [← same, WorldContract.compare_slots (W := W) some_]
      rfl
  have values (count : Nat) : ((store.events.toList.filter fun entry =>
        (truthy (W.cursorAfter eventCount)).all (· < entry.1)).take count).map (fun entry => some entry.2) =
      store.slots W (eventCount + 1) (min count (store.eventSequence - eventCount)) := by
    rw [beyond]
    exact log.dense.beyond WorldContract.compare_slots eventCount count
  have length := congrArg List.length (values (limit + 1))
  rw [List.length_map, RunStore.slots, List.length_map, List.length_range'] at length
  refine ⟨?_, ?_⟩
  · calc _ = (((store.events.toList.filter fun entry =>
              (truthy (W.cursorAfter eventCount)).all (· < entry.1)).take (limit + 1)).take limit).map
                (fun entry => some entry.2) := by
            simp only [CelldWorld.listEventPage, listByPrefix, List.map_take, List.map_map]
            rfl
      _ = _ := by rw [List.take_take, Nat.min_eq_left (Nat.le_succ limit), values]
  · rw [CelldWorld.listEventPage, listByPrefix, List.length_map, decide_eq_true_eq, length]
    omega

/-- A stored event stands in a slot of the log, and its ID is that of the slot. -/
theorem LogState.slot (log : LogState W runId store history) {key : String} {event : Event}
    (stored : store.events[key]? = some event) :
    ∃ slot, 1 ≤ slot ∧ slot ≤ store.eventSequence ∧ event.eventId = W.slotToEventId slot ∧
      W.eventIdToSlot event.eventId = some slot := by
  obtain ⟨slot, some_, bound, same⟩ :=
    (log.dense key).mp (Std.ExtTreeMap.mem_iff_isSome_getElem?.mpr (by rw [stored]; rfl))
  have own := (log.stored key event stored).1
  refine ⟨slot, some_, bound, own.trans same.symm, ?_⟩
  rw [own, ← same, W.eventIdToSlot_slotToEventId]

theorem LogState.mem_slots (log : LogState W runId store history) {first count : Nat} {event : Event}
    (member : some event ∈ store.slots W first count) :
    ∃ slot, first ≤ slot ∧ slot < first + count ∧ event.eventId = W.slotToEventId slot := by
  obtain ⟨slot, inside, stored⟩ := List.mem_map.mp member
  rw [List.mem_range'_1] at inside
  exact ⟨slot, inside.1, inside.2, (log.stored _ _ stored).1⟩

/-- What the event count of a request leaves out is the events up to the committed slot. -/
theorem LogState.attachSkippedEvents (log : LogState W runId store history) {result : ApplyEventSuccess}
    {event : Event}
    {key : String} (stored : store.events[key]? = some event) (eventCount : Nat) :
    ∃ slot, W.eventIdToSlot event.eventId = some slot ∧
      (slot ≤ eventCount + 1 → CelldWorld.attachSkippedEvents W store result event eventCount = result) ∧
      (eventCount + 1 < slot → ∃ events,
        CelldWorld.attachSkippedEvents W store result event eventCount =
          { result with page := some ⟨events, none, false⟩ } ∧
          events.map some = store.slots W (eventCount + 1) (slot - eventCount - 1)) := by
  obtain ⟨slot, some_, bound, own, number⟩ := log.slot stored
  refine ⟨slot, number, fun known => ?_, fun missing => ?_⟩
  · unfold CelldWorld.attachSkippedEvents
    rw [number]
    exact if_pos known
  · obtain ⟨page, -⟩ := log.listEventPage (slot - eventCount - 1) eventCount
    rw [Nat.min_eq_left (by omega)] at page
    have kept : (CelldWorld.listEventPage store.events (slot - eventCount - 1)
      (W.cursorAfter eventCount)).events.filter
        (fun other => other.eventId < event.eventId) =
        (CelldWorld.listEventPage store.events (slot - eventCount - 1) (W.cursorAfter eventCount)).events := by
      refine List.filter_eq_self.mpr fun other member => ?_
      obtain ⟨earlier, -, before, same⟩ := log.mem_slots (page ▸ List.mem_map_of_mem member)
      rw [decide_eq_true_eq, same, own]
      exact W.slotToEventId_lt (by omega)
    have length := congrArg List.length page
    rw [List.length_map, RunStore.slots, List.length_map, List.length_range'] at length
    refine ⟨_, ?_, page⟩
    unfold CelldWorld.attachSkippedEvents
    rw [number]
    simp only [if_neg (Nat.not_le.mpr missing)]
    rw [show (if 0 < eventCount then some (W.slotToEventId eventCount) else none) =
      W.cursorAfter eventCount from rfl,
      kept, length, decide_eq_false (Nat.lt_irrefl _)]

/-- The complete log of a started running run, with its last slot as the cursor. -/
theorem LogState.attachHookReplayPreload (log : LogState W runId store history) {result : ApplyEventSuccess}
    {run : WorkflowRun} (some_ : 1 ≤ store.eventSequence) (current : store.run = some run)
    (started : run.startedAt.isSome = true) (running : run.status = .running)
    (fits : store.eventSequence ≤ W.getMaxEventsPerRun) :
    ∃ events, CelldWorld.attachHookReplayPreload W store result =
        { result with
          replayRun := some run
          maxEvents := some W.getMaxEventsPerRun
          page := some ⟨events, some (W.slotToEventId store.eventSequence), false⟩ } ∧
      events.map some = store.slots W 1 store.eventSequence := by
  obtain ⟨page, more⟩ := log.listEventPage W.getMaxEventsPerRun 0
  rw [Nat.sub_zero, Nat.min_eq_right fits] at page
  have complete : (CelldWorld.listEventPage store.events W.getMaxEventsPerRun none).hasMore = false :=
    Bool.eq_false_iff.mpr fun beyond => absurd (more.mp beyond) (by omega)
  have last : ((CelldWorld.listEventPage store.events W.getMaxEventsPerRun none).events.map some).getLast? =
      some (store.events[W.slotToEventId store.eventSequence]?) := by
    have whole : CelldWorld.listEventPage store.events W.getMaxEventsPerRun (W.cursorAfter 0) =
      CelldWorld.listEventPage store.events W.getMaxEventsPerRun none := rfl
    rw [← whole, page]
    obtain ⟨before, spelled⟩ : ∃ before, store.eventSequence = before + 1 := ⟨_, (Nat.sub_add_cancel some_).symm⟩
    rw [RunStore.slots, spelled, List.range'_concat, List.map_append, Nat.one_mul, Nat.add_comm 1 before]
    exact List.getLast?_concat
  rw [List.getLast?_map] at last
  obtain ⟨event, latest, stored⟩ := Option.map_eq_some_iff.mp last
  refine ⟨_, ?_, page⟩
  unfold CelldWorld.attachHookReplayPreload
  rw [current]
  have own := (log.stored _ _ stored.symm).1
  have ready : ¬ (run.startedAt.isNone = true ∨ run.status ≠ .running) := by
    rw [not_or, ne_eq, not_not, Option.isNone_iff_eq_none]
    exact ⟨Option.isSome_iff_ne_none.mp started, running⟩
  simp only [if_neg ready, complete, latest, own]
  rfl

/-- From the cursor of the complete log, a later log lists what was appended since, and nothing
in between is left out. -/
theorem LogState.resume {later : RunStore} {laterHistory : List Event} (log : LogState W runId store history)
    (laterLog : LogState W runId later laterHistory) (some_ : 1 ≤ store.eventSequence)
    (kept : ∀ (id : String) event, store.events[id]? = some event → later.events[id]? = some event)
    (limit : Nat) :
    store.slots W 1 store.eventSequence ++
        (CelldWorld.listEventPage later.events limit (some (W.slotToEventId store.eventSequence))).events.map
          some =
      later.slots W 1 (store.eventSequence + min limit (later.eventSequence - store.eventSequence)) := by
  have cursor : W.cursorAfter store.eventSequence = some (W.slotToEventId store.eventSequence) := if_pos some_
  obtain ⟨page, -⟩ := laterLog.listEventPage limit store.eventSequence
  rw [← cursor, page]
  have same : store.slots W 1 store.eventSequence = later.slots W 1 store.eventSequence := by
    refine List.map_congr_left fun slot inside => ?_
    rw [List.mem_range'_1] at inside
    obtain ⟨event, stored⟩ := log.dense.getElem? inside.1 (show slot ≤ store.eventSequence by omega)
    rw [stored, kept _ event stored]
  rw [same, RunStore.slots, RunStore.slots, RunStore.slots, ← List.map_append, ← List.range'_append_1,
    Nat.add_comm 1 store.eventSequence]

namespace WorkflowRunDO
variable {now : Nat} {request : ApplyEventRequest} {success : ApplyEventSuccess}

/-- The page that a write itself answers with. -/
def preloadedPage (W : WorldContract) (now : Nat) (request : ApplyEventRequest) (store : RunStore) :
    Option EventPage :=
  if ({ request with now } : ApplyEventContext).isRunStarted then
    ApplyEventContext.preloadEvents W { request with now } ⟨store, store.eventSequence⟩
  else none

/-- A successful call finishes an answer over the committed store, whose event is stored. -/
theorem applyEvent_finalized (call : applyEvent W runId now request store = .ok (.ok success, after)) :
    ∃ committed, finalizeEventPage W after (.ok committed) request.params = .ok success ∧
      committed.page = preloadedPage W now request after ∧
      ∀ event, committed.event = some event → ∃ key : String, after.events[key]? = some event := by
  rcases applyEvent_ok call with ⟨⟨_, refused⟩, -⟩ | ⟨applied, txn, -, -, application, commit⟩
  · cases refused
  have quiet := commitOutcome_quiet (applyEvent_answers application) commit
  have reports := applyEvent_reports application
  obtain ⟨scheduled, committed, finalized⟩ := commitOutcome_ok commit
  have finalized := finalized.symm
  obtain ⟨sameEvent, samePage⟩ : scheduled.event = applied.event ∧ scheduled.page = applied.page := by
    cases committed <;> exact ⟨rfl, rfl⟩
  have deadline : (setPublicationDeadline now scheduled).event = scheduled.event ∧
      (setPublicationDeadline now scheduled).page = scheduled.page := by
    unfold setPublicationDeadline
    split <;> exact ⟨rfl, rfl⟩
  refine ⟨_, finalized, ?_, fun event carried => ?_⟩
  · rw [deadline.2, samePage, reports.page]
    unfold preloadedPage ApplyEventContext.preloadEvents
    rw [show after.events = txn.store.events from quiet.events]
  · obtain ⟨key, stored⟩ := reports.event event (sameEvent.symm.trans (deadline.1.symm.trans carried))
    exact ⟨key, (congrArg (·[key]?) quiet.events).trans stored⟩

/-- What `maxEvents` is filled in with leaves the event and the page alone. -/
def withMaxEvents (W : WorldContract) (committed : ApplyEventSuccess) : ApplyEventSuccess :=
  if committed.run.isSome ∧ committed.maxEvents = none then
    { committed with maxEvents := some W.getMaxEventsPerRun }
  else committed

theorem maxEvents_filled {committed : ApplyEventSuccess} :
    (if committed.run.isSome ∧ committed.maxEvents = none then
      { committed with maxEvents := some W.getMaxEventsPerRun }
      else committed) = withMaxEvents W committed := rfl

theorem withMaxEvents_kept {committed : ApplyEventSuccess} :
    (withMaxEvents W committed).event = committed.event ∧ (withMaxEvents W committed).page = committed.page := by
  unfold withMaxEvents
  split <;> exact ⟨rfl, rfl⟩

theorem finalizeEventPage_counted {committed : ApplyEventSuccess} {params : CreateEventParams} {event : Event}
    {eventCount : Nat} (carried : committed.event = some event) (uncursored : params.sinceCursor = none)
    (counted : params.eventCount = some eventCount)
    (other : ¬ (params.preloadEvents = true ∧ event.data.isHookReceived = true)) :
    finalizeEventPage W store (.ok committed) (some params) =
      .ok (CelldWorld.attachSkippedEvents W store (withMaxEvents W committed) event eventCount) := by
  unfold finalizeEventPage
  simp only [maxEvents_filled, withMaxEvents_kept.1.trans carried, if_neg other, uncursored, counted]

theorem finalizeEventPage_replay {committed : ApplyEventSuccess} {params : CreateEventParams} {event : Event}
    (carried : committed.event = some event)
    (replay : params.preloadEvents = true ∧ event.data.isHookReceived = true) :
    finalizeEventPage W store (.ok committed) (some params) =
      .ok (CelldWorld.attachHookReplayPreload W store (withMaxEvents W committed)) := by
  unfold finalizeEventPage
  simp only [maxEvents_filled, withMaxEvents_kept.1.trans carried, if_pos replay]

end WorkflowRunDO

/-- The answer of a write that an event count came with: the page of the write itself where the
caller has all earlier events, and otherwise the events between them and the committed one. -/
def AnswersCount (W : WorldContract) (own : Option EventPage) (slot eventCount : Nat) (after : RunStore)
    (page : Option EventPage) : Prop :=
  (slot ≤ eventCount + 1 → page = own) ∧
    (eventCount + 1 < slot → ∃ events, page = some ⟨events, none, false⟩ ∧
      events.map some = after.slots W (eventCount + 1) (slot - eventCount - 1))

/-- The answer of a resume that asked for the log: the complete log, from whose cursor on every
later log lists what was appended since. -/
def AnswersLog (W : WorldContract) (runId : String) (run : WorkflowRun) (after : RunStore)
    (success : ApplyEventSuccess) :
    Prop :=
  success.replayRun = some run ∧
    (∃ events, success.page = some ⟨events, some (W.slotToEventId after.eventSequence), false⟩ ∧
      events.map some = after.slots W 1 after.eventSequence) ∧
    (∀ limit, listEventPage after.events limit (some (W.slotToEventId after.eventSequence)) = ⟨[], none, false⟩) ∧
    ∀ later laterHistory, LogState W runId later laterHistory →
      (∀ (id : String) event, after.events[id]? = some event → later.events[id]? = some event) → ∀ limit,
        after.slots W 1 after.eventSequence ++
            (listEventPage later.events limit (some (W.slotToEventId after.eventSequence))).events.map some =
          later.slots W 1 (after.eventSequence + min limit (later.eventSequence - after.eventSequence))

/-- The event page that is returned with a write is what the caller is missing: the slots
between its count and the event, if nothing else is preloaded. With a preload, a hook that
a running run has received comes with the whole log. -/
theorem applyEvent_page {now : Nat} {request : ApplyEventRequest} {success : ApplyEventSuccess}
    {params : CreateEventParams}
    {event : Event} (log : LogState W runId store history)
    (call : WorkflowRunDO.applyEvent W runId now request store = .ok (.ok success, after))
    (positioned : request.params = some params) (carried : success.event = some event) :
    ∃ slot, W.eventIdToSlot event.eventId = some slot ∧ slot ≤ after.eventSequence ∧
      after.events[W.slotToEventId slot]? = some event ∧
      (∀ eventCount, params.eventCount = some eventCount → params.sinceCursor = none →
        (params.preloadEvents = true → event.data.isHookReceived = false) →
        AnswersCount W (WorkflowRunDO.preloadedPage W now request after) slot eventCount after success.page) ∧
      ∀ run, params.preloadEvents = true → event.data.isHookReceived = true → after.run = some run →
        run.startedAt.isSome = true → run.status = .running → after.eventSequence ≤ W.getMaxEventsPerRun →
        AnswersLog W runId run after success := by
  obtain ⟨extended, afterLog⟩ := log.transition (WorkflowRunDO.applyEvent_transition call)
  obtain ⟨committed, finalized, page, reported⟩ := WorkflowRunDO.applyEvent_finalized call
  rw [positioned] at finalized
  have committedEvent : committed.event = some event := by
    obtain ⟨_, _, _, same⟩ := finalizeEventPage_page finalized
    rw [same] at carried
    exact carried
  obtain ⟨key, stored⟩ := reported event committedEvent
  obtain ⟨slot, some_, bound, own, number⟩ := afterLog.slot stored
  have keyed : after.events[W.slotToEventId slot]? = some event := by
    rw [← own, (afterLog.stored key event stored).1]
    exact stored
  refine ⟨slot, number, bound, keyed, fun eventCount counted uncursored other => ?_,
    fun run preload received current started running fits => ?_⟩
  · have notReplay : ¬ (params.preloadEvents = true ∧ event.data.isHookReceived = true) := fun both => by
      rw [other both.1] at both
      cases both.2
    rw [WorkflowRunDO.finalizeEventPage_counted committedEvent uncursored counted notReplay] at finalized
    obtain ⟨slot', number', known, missing⟩ := @LogState.attachSkippedEvents _ _ _ _ afterLog
      (WorkflowRunDO.withMaxEvents W committed) event key stored eventCount
    obtain rfl := Option.some.inj (number.symm.trans number')
    have same := ApplyEventOutcome.ok.inj finalized
    refine ⟨fun few => ?_, fun many => ?_⟩
    · rw [← same, known few, WorkflowRunDO.withMaxEvents_kept.2, page]
    · obtain ⟨skipped, attached, exact_⟩ := missing many
      exact ⟨skipped, by rw [← same, attached], exact_⟩
  · rw [WorkflowRunDO.finalizeEventPage_replay committedEvent ⟨preload, received⟩] at finalized
    have nonempty : 1 ≤ after.eventSequence := Nat.le_trans some_ bound
    obtain ⟨log, attached, exact_⟩ := @LogState.attachHookReplayPreload _ _ _ _ afterLog
      (WorkflowRunDO.withMaxEvents W committed) run nonempty current started running fits
    have same := ApplyEventOutcome.ok.inj finalized
    rw [attached] at same
    refine ⟨by rw [← same], ⟨log, by rw [← same], exact_⟩, fun limit => ?_,
      fun later laterHistory laterLog kept limit => ?_⟩
    · obtain ⟨page, more⟩ := afterLog.listEventPage limit after.eventSequence
      rw [Nat.sub_self, Nat.min_zero, RunStore.slots, List.range'_zero, List.map_nil, List.map_eq_nil_iff] at page
      have cursor : W.cursorAfter after.eventSequence =
          some (W.slotToEventId after.eventSequence) := if_pos nonempty
      have done := listEventPage_done (Bool.eq_false_iff.mpr fun beyond => absurd (more.mp beyond) (by omega))
      rw [page, cursor] at done
      exact done
    · exact afterLog.resume laterLog nonempty kept limit

/-- A request of a caller that has the first events of the log. -/
def ApplyEventRequest.counted (data : CreateEvent) (eventCount : Nat) : ApplyEventRequest where
  runId := "run"
  data := { specVersion := none, data }
  params := some ⟨none, none, none, none, some eventCount, false, false⟩

def startedCell : RunStore :=
  CellOp.run .unary "run" 7 (.resilientStart "run" "deployment" "workflow" (.string "input")) {}

/-- A caller that has one event of a started run is answered the other one with its cancellation. -/
theorem applyEvent_page_cancelled : ∃ success after events,
    WorkflowRunDO.applyEvent .unary "run" 8 (.counted .runCancelled 1) startedCell = .ok (.ok success, after) ∧
      success.page = some ⟨events, none, false⟩ ∧ events.map some = after.slots .unary 2 1 := by
  have reach : CellReach .unary "run" (· ≤ ·) 7 startedCell _ := .next _ (.start 0) (Nat.zero_le 7)
  have log := reach.logState (by decide)
  have answered : ((eventSuccess
    (WorkflowRunDO.applyEvent .unary "run" 8 (.counted .runCancelled 1) startedCell)).bind
      (·.event)).map (·.eventId) = some "000" := by decide
  obtain ⟨event, told, id⟩ := Option.map_eq_some_iff.mp answered
  obtain ⟨success, accepts, carried⟩ := Option.bind_eq_some_iff.mp told
  obtain ⟨after, call⟩ := eventSuccess_eq_some.mp accepts
  obtain ⟨slot, number, -, -, counted, -⟩ := applyEvent_page log call rfl carried
  rw [id] at number
  obtain rfl : 3 = slot := Option.some.inj number
  obtain ⟨events, page, exact_⟩ := (counted 1 rfl rfl nofun).2 (by decide)
  exact ⟨success, after, events, call, page, exact_⟩

def firstStart : CreateEvent :=
  .runStarted (some
    { deploymentId := some "deployment"
      workflowName := some "workflow"
      input := some (.string "input")
      executionContext := none
      attributes := none
      allowReservedAttributes := none
      encryptionPublicKey := none })

/-- A `run_started` answers the log that it preloads, also to a caller that has it. -/
theorem applyEvent_page_preloaded : ∃ success after event,
    WorkflowRunDO.applyEvent .unary "run" 7 (.counted firstStart 2) {} = .ok (.ok success, after) ∧
      success.event = some event ∧ WorldContract.unary.eventIdToSlot event.eventId = some 2 ∧ 2 ≤ 2 + 1 ∧
        success.page ≠ none := by
  have answered : (eventSuccess (WorkflowRunDO.applyEvent .unary "run" 7 (.counted firstStart 2) {})).any
    (fun success =>
      success.page.isSome && success.event.any (·.eventId = "00")) = true := by decide
  obtain ⟨success, accepts, both⟩ := (Option.any_eq_true _ _).mp answered
  obtain ⟨paged, told⟩ := (Bool.and_eq_true _ _).mp both
  obtain ⟨event, carried, id⟩ := (Option.any_eq_true _ _).mp told
  obtain ⟨after, call⟩ := eventSuccess_eq_some.mp accepts
  refine ⟨success, after, event, call, carried, ?_, Nat.le_succ 2, Option.isSome_iff_ne_none.mp paged⟩
  rw [of_decide_eq_true id]
  rfl

end CelldWorld
