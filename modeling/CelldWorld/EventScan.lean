import CelldWorld.EventLog
import CelldWorld.RunPages

namespace CelldWorld

/-- The entity that an event is about. -/
def EventData.correlationId : EventData → Option String
  | .runCreated _ | .runStarted | .runCompleted _ | .runFailed .. | .runCancelled => none
  | .attrSet correlationId _ => correlationId
  | .stepCreated correlationId _ | .stepStarted correlationId _ | .stepCompleted correlationId _
  | .stepFailed correlationId _ | .stepRetrying correlationId .. | .hookCreated correlationId _
  | .hookConflict correlationId .. | .hookReceived correlationId _ | .hookDisposed correlationId ..
  | .waitCreated correlationId _ | .waitCompleted correlationId _ => some correlationId

/-- The events of a run, each under its own ID. -/
structure StoredLog where
  events : KeyMap Event
  keyed : Keyed Event.eventId events

/-- The matches after a page, which is left as soon as there is one more than the limit. -/
def pushMatches (correlationId : String) (limit : Rat) : List Event → List Event → List Event
  | [], found => found
  | event :: data, found =>
    if event.data.correlationId = some correlationId then
      if limit < (found ++ [event]).length then found ++ [event]
      else pushMatches correlationId limit data (found ++ [event])
    else pushMatches correlationId limit data found

/-- The scan of `events.listByCorrelationId` over the pages of a log; `none` without fuel. -/
def scanCorrelated (log : StoredLog) (correlationId : String) (limit : Rat) (sortOrder : SortOrder) :
    Nat → Option String → List Event → Option (List Event)
  | 0, _, _ => none
  | fuel + 1, scanCursor, found =>
    if limit < found.length then some found
    else
      let (data, cursor, hasMore) :=
        listByPrefixNumber log.events (min 1000 (max 50 (limit + 1))) scanCursor sortOrder
        Event.eventId
      let found := pushMatches correlationId limit data found
      if hasMore = false ∨ data.length = 0 then some found
      else scanCorrelated log correlationId limit sortOrder fuel
        (cursor.or (data.getLast?.map Event.eventId)) found

/-- `events.listByCorrelationId` -/
def listByCorrelationId (log : StoredLog) (correlationId : String) (limit : Rat) (cursor : Option String)
    (sortOrder : SortOrder) (fuel : Nat) : Option (List Event × Option String × Bool) := do
  let found ← scanCorrelated log correlationId limit sortOrder fuel cursor []
  let hasMore := decide (limit < found.length)
  let data := found.take limit.floor.toNat
  some (data, if hasMore then data.getLast?.map Event.eventId else none, hasMore)

variable {log : StoredLog} {correlationId : String} {limit : Rat} {sortOrder : SortOrder} {cursor : Option String}
  {data found : List Event}

/-- The events that match, under their IDs. -/
def StoredLog.correlated (log : StoredLog) (correlationId : String) (sortOrder : SortOrder) :
    List (String × Event) :=
  (log.events.listed sortOrder).filter fun entry => entry.2.data.correlationId = some correlationId

theorem lt_floor {size : Nat} (some_ : 1 ≤ limit) : limit < size ↔ limit.floor.toNat < size := by
  have lower : 1 ≤ limit.floor := Rat.le_floor_iff.mpr some_
  rw [← Rat.intCast_natCast, ← Rat.floor_lt_iff]
  omega

theorem pushMatches_take (some_ : 1 ≤ limit) (few : found.length ≤ limit.floor.toNat) :
    pushMatches correlationId limit data found =
      (found ++ data.filter fun event => event.data.correlationId = some correlationId).take
        (limit.floor.toNat + 1) := by
  induction data generalizing found with
  | nil =>
    rw [pushMatches, List.filter_nil, List.append_nil, List.take_of_length_le (by omega)]
  | cons event data ih =>
    unfold pushMatches
    by_cases same : event.data.correlationId = some correlationId
    · rw [if_pos same, List.filter_cons_of_pos (by simpa using same)]
      have longer : (found ++ [event]).length = found.length + 1 := List.length_append
      split
      · rename_i beyond
        have full := (lt_floor some_).mp beyond
        have length : limit.floor.toNat + 1 = (found ++ [event]).length := by omega
        have cut := List.append_cons found event
          (data.filter fun event => event.data.correlationId = some correlationId)
        rw [cut, length, List.take_left]
      · rename_i within
        have more : ¬ limit.floor.toNat < (found ++ [event]).length := fun beyond =>
          within ((lt_floor some_).mpr beyond)
        rw [ih (by omega), List.append_assoc, List.singleton_append]
    · rw [if_neg same, List.filter_cons_of_neg (by simpa using same)]
      exact ih few

/-- What is left to match beyond a cursor. -/
theorem correlated_beyond : CursorPages.beyond sortOrder.before cursor (log.correlated correlationId sortOrder) =
    (CursorPages.beyond sortOrder.before cursor (log.events.listed sortOrder)).filter
      fun entry => entry.2.data.correlationId = some correlationId := by
  unfold CursorPages.beyond StoredLog.correlated
  rw [List.filter_filter, List.filter_filter]
  exact List.filter_congr fun entry _ => Bool.and_comm _ _

theorem filter_values {entries : List (String × Event)} :
    (entries.map Prod.snd).filter (fun event => event.data.correlationId = some correlationId) =
      (entries.filter fun entry => entry.2.data.correlationId = some correlationId).map Prod.snd := by
  rw [List.filter_map]
  rfl

theorem take_append_take {first second : List Event} {count : Nat} (beyond : count ≤ first.length) :
    (first ++ second).take count = first.take count := by
  rw [List.take_append, Nat.sub_eq_zero_of_le beyond, List.take_zero, List.append_nil]

/-- The scan finds the first matches beyond its cursor, one more than the limit if there are. -/
theorem scanCorrelated_take {fuel : Nat} (some_ : 1 ≤ limit) (few : found.length ≤ limit.floor.toNat)
    (enough : (CursorPages.beyond sortOrder.before (truthy cursor) (log.events.listed sortOrder)).length < fuel) :
    scanCorrelated log correlationId limit sortOrder fuel cursor found =
      some ((found ++ (CursorPages.beyond sortOrder.before (truthy cursor)
        (log.correlated correlationId sortOrder)).map Prod.snd).take (limit.floor.toNat + 1)) := by
  induction fuel generalizing cursor found with
  | zero => exact absurd enough (Nat.not_lt_zero _)
  | succ fuel ih =>
    have paged : (1 : Rat) ≤ min 1000 (max 50 (limit + 1)) := le_min (by decide) (le_max_of_le_left (by decide))
    have positive := floor_pos paged
    have page := @listByPrefixNumber_page Event sortOrder cursor log.events Event.eventId _ paged
      fun key value stored => (log.keyed key value stored).1
    rw [scanCorrelated, if_neg fun beyond => Nat.not_le_of_lt ((lt_floor some_).mp beyond) few, page]
    generalize (min 1000 (max 50 (limit + 1)) : Rat).floor.toNat = size at positive
    dsimp only
    rw [pushMatches_take some_ few, filter_values, correlated_beyond]
    cases reached : CursorPages.next sortOrder.before size (truthy cursor) (log.events.listed sortOrder) with
    | none => rw [if_pos (.inl rfl), CursorPages.page_last positive reached]
    | some key =>
      have longer : size < (CursorPages.beyond sortOrder.before (truthy cursor)
          (log.events.listed sortOrder)).length := by
        refine Nat.lt_of_not_le fun few => ?_
        rw [(CursorPages.next_eq_none positive).mpr few] at reached
        cases reached
      have rest := CursorPages.beyond_next KeyMap.listed_ordered reached
      have kept : truthy (some key) = some key := by
        obtain ⟨last, ends, rfl⟩ := CursorPages.next_eq_some reached
        exact truthy_eq_some.mpr ⟨rfl,
          log.keyed.filled last (CursorPages.page_sublist.subset (List.mem_of_getLast? ends))⟩
      have filled : ¬ (((CursorPages.page sortOrder.before size (truthy cursor) (log.events.listed sortOrder)).map
          Prod.snd).length = 0) := by
        rw [List.length_map, CursorPages.page, List.length_take]
        omega
      have whole : CursorPages.beyond sortOrder.before (truthy cursor) (log.events.listed sortOrder) =
          CursorPages.page sortOrder.before size (truthy cursor) (log.events.listed sortOrder) ++
            CursorPages.beyond sortOrder.before (some key) (log.events.listed sortOrder) := by
        rw [rest]
        exact (List.take_append_drop size _).symm
      have fewer : (CursorPages.beyond sortOrder.before (some key) (log.events.listed sortOrder)).length <
          fuel := by
        rw [rest, List.length_drop]
        omega
      rw [if_neg (by simpa using filled), Option.some_or, whole, List.filter_append, List.map_append,
        ← List.append_assoc]
      generalize ((CursorPages.page sortOrder.before size (truthy cursor) (log.events.listed sortOrder)).filter
        fun entry => entry.2.data.correlationId = some correlationId).map Prod.snd = first
      rcases Nat.lt_or_ge limit.floor.toNat (found ++ first).length with beyond | within
      · -- The scan leaves the page at the match over the limit, and ends.
        obtain ⟨fuel, rfl⟩ := Nat.exists_eq_add_of_lt (Nat.lt_of_le_of_lt (Nat.zero_le _) fewer)
        have full : limit < (((found ++ first).take (limit.floor.toNat + 1)).length : Nat) := by
          rw [lt_floor some_, List.length_take]
          omega
        rw [Nat.zero_add, scanCorrelated, if_pos full, take_append_take beyond]
      · have next := @ih (some key) (found ++ first) within (by rwa [kept])
        rw [List.take_of_length_le (by omega), next, kept, correlated_beyond]

theorem StoredLog.correlated_ordered :
    CursorPages.Ordered sortOrder.before (log.correlated correlationId sortOrder) :=
  KeyMap.listed_ordered.sublist List.filter_sublist

theorem StoredLog.correlated_filled : ∀ entry ∈ log.correlated correlationId sortOrder, entry.1 ≠ "" :=
  fun entry member => log.keyed.filled entry (List.mem_of_mem_filter member)

/-- A page of `listByCorrelationId` is a page over the matches of the log. -/
theorem listByCorrelationId_page {fuel : Nat} (some_ : 1 ≤ limit) (enough : log.events.size < fuel) :
    listByCorrelationId log correlationId limit cursor sortOrder fuel =
      let next := CursorPages.next sortOrder.before limit.floor.toNat (truthy cursor)
        (log.correlated correlationId sortOrder)
      some ((CursorPages.page sortOrder.before limit.floor.toNat (truthy cursor)
        (log.correlated correlationId sortOrder)).map Prod.snd, next, next.isSome) := by
  have fewer : (CursorPages.beyond sortOrder.before (truthy cursor) (log.events.listed sortOrder)).length <
      fuel := by
    refine Nat.lt_of_le_of_lt (List.length_filter_le _ _) ?_
    rwa [KeyMap.listed_length]
  have positive := floor_pos some_
  have exceeds (size : Nat) : limit < size ↔ limit.floor.toNat < size := lt_floor some_
  unfold listByCorrelationId
  rw [scanCorrelated_take some_ (Nat.zero_le _) fewer, List.nil_append]
  dsimp only [bind, Option.bind]
  rw [page_more positive, ← List.map_take, ← List.map_take, List.take_take,
    Nat.min_eq_left (Nat.le_succ _), List.length_map,
    List.length_take, List.getLast?_map, Option.map_map]
  generalize limit.floor.toNat = count at *
  have more : decide (limit < (min (count + 1) (CursorPages.beyond sortOrder.before (truthy cursor)
      (log.correlated correlationId sortOrder)).length : Nat)) =
      decide (count < (CursorPages.beyond sortOrder.before (truthy cursor)
        (log.correlated correlationId sortOrder)).length) := by
    rw [decide_eq_decide, exceeds]
    omega
  rw [more]
  refine congrArg some (congrArg (_, ·) (congrArg (·, _) ?_))
  unfold CursorPages.next CursorPages.page
  simp only [decide_eq_true_eq]
  split
  · cases ends : ((CursorPages.beyond sortOrder.before (truthy cursor)
        (log.correlated correlationId sortOrder)).take count).getLast? with
    | none => rfl
    | some last =>
      have member := List.mem_of_mem_take (List.mem_of_getLast? ends)
      have stored := KeyMap.mem_listed.mp (List.mem_of_mem_filter (CursorPages.mem_beyond.mp member).1)
      exact congrArg some (log.keyed _ _ stored).1
  · rfl

/-- The log of every run that a cell can reach, until its payload is deleted. -/
def LogState.storedLog {W : WorldContract} {runId : String} {store : RunStore} {history : List Event}
    (state : LogState W runId store history) : StoredLog where
  events := store.events
  keyed key event stored := by
    refine ⟨(state.stored key event stored).1, ?_⟩
    obtain ⟨slot, some_, -, rfl⟩ :=
      (state.dense key).mp (Std.ExtTreeMap.mem_iff_isSome_getElem?.mpr (by rw [stored]; rfl))
    intro empty
    have later : W.slotToEventId 0 < W.slotToEventId slot := W.slotToEventId_lt some_
    rw [empty, String.lt_iff] at later
    exact List.not_lt_nil _ later

/-- `listByCorrelationId` ends and answers the first matches beyond its cursor, in the order that
was asked for, and whether there are more. Its cursors lead through all matches of the log, each
once. -/
theorem listByCorrelationId_exact (log : StoredLog) (correlationId : String) (limit : Rat) (sortOrder : SortOrder)
    (fuel : Nat) (some_ : 1 ≤ limit) (enough : log.events.size < fuel) :
    (∀ cursor, ∃ data next hasMore, listByCorrelationId log correlationId limit cursor sortOrder fuel =
      some (data, next, hasMore) ∧
      let matched := ((log.events.listed sortOrder).filter fun entry =>
        (truthy cursor).all (sortOrder.before · entry.1) &&
          entry.2.data.correlationId = some correlationId).map Prod.snd
      data = matched.take limit.floor.toNat ∧ (hasMore = true ↔ limit < matched.length)) ∧
    ∀ pages, log.events.size < pages → ∀ answer : Option String → List Event × Option String × Bool,
      (∀ cursor, listByCorrelationId log correlationId limit cursor sortOrder fuel = some (answer cursor)) →
      let result := followPages (fun _ cursor => answer cursor) (List.replicate pages log) none
      result.2 = true ∧ result.1.flatten =
        ((log.events.listed sortOrder).map Prod.snd).filter fun event => event.data.correlationId =
          some correlationId := by
  have matched (cursor : Option String) : (log.events.listed sortOrder).filter (fun entry =>
      (truthy cursor).all (sortOrder.before · entry.1) && entry.2.data.correlationId = some correlationId) =
      CursorPages.beyond sortOrder.before (truthy cursor) (log.correlated correlationId sortOrder) := by
    rw [correlated_beyond, CursorPages.beyond, List.filter_filter]
    exact List.filter_congr fun entry _ => Bool.and_comm _ _
  refine ⟨fun cursor => ⟨_, _, _, listByCorrelationId_page some_ enough, ?_⟩, fun pages many answer answers => ?_⟩
  · rw [matched]
    refine ⟨List.map_take, ?_⟩
    rw [page_more (floor_pos some_), decide_eq_true_eq, List.length_map, lt_floor some_]
  · have few : (log.correlated correlationId sortOrder).length < pages := by
      refine Nat.lt_of_le_of_lt (List.length_filter_le _ _) ?_
      rwa [KeyMap.listed_length]
    have whole := @followPages_replicate _ _ _ sortOrder (fun _ cursor => answer cursor)
      (fun log => log.correlated correlationId sortOrder) (fun _ page => page.map Prod.snd)
        limit.floor.toNat log pages
      (floor_pos some_) log.correlated_ordered
      (fun cursor => Option.some.inj ((answers cursor).symm.trans (listByCorrelationId_page some_ enough)))
      log.correlated_filled (fun _ _ => List.map_append) few
    rw [filter_values]
    exact whole

def stepStartedEvent (eventId : String) : Event :=
  { eventId, runId := "run", createdAt := 1, occurredAt := none, resumeId := none, specVersion := 5
    data := .stepStarted "step" none }

/-- A log of two events of one step, between which lies an event of the run. -/
def stepLog : StoredLog where
  events := (∅ : KeyMap Event).insert "a" (stepStartedEvent "a") |>.insert "b"
    { stepStartedEvent "b" with data := .runStarted }
    |>.insert "c" (stepStartedEvent "c")
  keyed key event stored := by
    simp only [Std.ExtTreeMap.getElem?_insert] at stored
    split at stored
    · rename_i same
      cases Option.some.inj stored
      cases Std.LawfulEqCmp.eq_of_compare same
      decide
    split at stored
    · rename_i same
      cases Option.some.inj stored
      cases Std.LawfulEqCmp.eq_of_compare same
      decide
    split at stored
    · rename_i same
      cases Option.some.inj stored
      cases Std.LawfulEqCmp.eq_of_compare same
      decide
    · simp at stored

/-- Two pages of one event each lead through the events of the step, the newest first. -/
theorem listByCorrelationId_exact_steps :
    (∃ data next hasMore, listByCorrelationId stepLog "step" 1 none .desc 4 = some (data, next, hasMore) ∧
      data = [stepStartedEvent "c"] ∧ hasMore = true) ∧
    (followPages (fun _ cursor => (listByCorrelationId stepLog "step" 1 cursor .desc 4).getD ([], none, false))
      (List.replicate 4 stepLog) none).1.flatten = [stepStartedEvent "c", stepStartedEvent "a"] := by
  obtain ⟨page, follows⟩ := listByCorrelationId_exact stepLog "step" 1 .desc 4 (by decide) (by decide)
  constructor
  · obtain ⟨data, next, hasMore, answered, first, more⟩ := page none
    exact ⟨data, next, hasMore, answered, first.trans (by decide +kernel), more.mpr (by decide +kernel)⟩
  · refine (follows 4 (by decide) _ fun cursor => ?_).2.trans (by decide +kernel)
    obtain ⟨data, next, hasMore, answered, -⟩ := page cursor
    rw [answered]
    rfl

end CelldWorld
