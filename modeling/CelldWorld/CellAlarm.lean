import CelldWorld.AlarmSteps
import CelldWorld.RetentionPasses
import CelldWorld.Spec.Pages

namespace CelldWorld

/-- A page that waits for the answers of other cells or of the object storage, with the
record it was started for and what it has listed. -/
inductive CellPass
  | cleanup (record : CleanupRecord) (listed : CleanupPage)
  | terminal (record : TerminalCleanupRecord) (listed : TerminalCleanupPage)
  deriving DecidableEq, Repr

/-- A page in flight; `pages` more may follow it in the same `enforceRetention`. -/
structure CellFlight where
  pass : CellPass
  pages : Nat
  deriving DecidableEq, Repr

/-- The page with the answer of the stream registry, which the cell does not know before. -/
def CleanupPage.answered (deleted : Nat) (done : Bool) : CleanupPage → CleanupPage
  | .streams _ _ => .streams deleted done
  | page => page

namespace WorkflowRunDO

/-- `executeCleanup` up to its calls: the store and the page that waits for them. -/
def beginCleanup (now : Nat) (cleanup : CleanupRecord) (store : RunStore) : RunStore × Option CellPass :=
  match cleanup.phase with
  | .retained => (executeCleanup now cleanup .start store, none)
  | .index => (store, some (.cleanup cleanup (.index (store.hookMarkers.keys.take HOOK_MARKER_PAGE_SIZE)
      (HOOK_MARKER_PAGE_SIZE < store.hookMarkers.size))))
  | .streams => (store, some (.cleanup cleanup (.streams 0 false)))
  | .queues =>
    (store, some (.cleanup cleanup (.queues (store.queuePayloads.keys.take QUEUE_PAYLOADS_PER_CLEANUP_PAGE)
      (QUEUE_PAYLOADS_PER_CLEANUP_PAGE < store.queuePayloads.size))))
  | .payload => (executeCleanup now cleanup .payload store, none)
  | .tombstoned => (store, none)

/-- `deleteTerminalHookPage` up to its call. -/
def beginTerminalHookPage (cleanup : TerminalCleanupRecord) (store : RunStore) : CellPass :=
  .terminal cleanup (.hooks (store.hooks.values.take TERMINAL_HOOK_PAGE_SIZE)
    (TERMINAL_HOOK_PAGE_SIZE < store.hooks.size))

/-- `executeTerminalCleanup` up to its calls. -/
def beginTerminalCleanup (now : Nat) (cleanup : TerminalCleanupRecord) (store : RunStore) :
    RunStore × Option CellPass :=
  match cleanup.phase with
  | .hooks =>
    if TERMINAL_HOOK_PAGE_SIZE < store.hooks.size ∨ HOOK_MARKER_PAGE_SIZE < store.hookMarkers.size then
      (store, some (beginTerminalHookPage cleanup store))
    else (store, some (.terminal cleanup (.small store.hooks.values store.hookMarkers.keys)))
  | .markers => (store, some (.terminal cleanup (.markers (store.hookMarkers.keys.take HOOK_MARKER_PAGE_SIZE)
      (HOOK_MARKER_PAGE_SIZE < store.hookMarkers.size))))
  | .waits => (executeTerminalCleanup now cleanup .waits store, none)

/-- `executeScheduledCleanupPage` up to its calls. Due retention comes first, then the
terminal cleanup. -/
def executeScheduledCleanupPage (now : Nat) (store : RunStore) : RunStore × Option CellPass :=
  match store.pendingCleanup.filter (fun cleanup => cleanup.dueAt ≤ now), store.terminalCleanup,
    store.pendingCleanup with
  | some cleanup, _, _ => beginCleanup now cleanup store
  | none, some cleanup, _ => beginTerminalCleanup now cleanup store
  | none, none, none => ({ store with alarm := none }, none)
  | none, none, some cleanup => beginCleanup now cleanup store

/-- The loop of `enforceRetention` over the pages that remain, up to a call of one of them. -/
def executePages (now : Nat) : Nat → RunStore → RunStore × Option CellFlight
  | 0, store => (store, none)
  | pages + 1, store =>
    if store.cleanup.any (fun cleanup => cleanup.phase = .retained ∨ cleanup.phase = .index) then
      match executeScheduledCleanupPage now store with
      | (store, some pass) => (store, some ⟨pass, pages⟩)
      | (store, none) => executePages now pages store
    else (store, none)

end WorkflowRunDO

/-- The rest of a page after its calls; the one-page terminal cleanup may turn into a paged one. -/
def CellPass.commit (now deleted : Nat) (done : Bool) (store : RunStore) : CellPass → RunStore × Option CellPass
  | .cleanup record listed => (WorkflowRunDO.executeCleanup now record (listed.answered deleted done) store, none)
  | .terminal record (.small hooks markers) =>
    match WorkflowRunDO.completeSmallTerminalCleanup now record hooks markers store with
    | some store => (store, none)
    | none => (store, some (WorkflowRunDO.beginTerminalHookPage record store))
  | .terminal record listed => (WorkflowRunDO.executeTerminalCleanup now record listed store, none)

/-- A call of the page has thrown. -/
def CellPass.recordFailure (now : Nat) (error : String) (store : RunStore) : CellPass → RunStore
  | .cleanup record _ => WorkflowRunDO.recordCleanupFailure now error record store
  | .terminal record _ => WorkflowRunDO.recordTerminalCleanupFailure now error record store

/-- A run cell with its pages in flight. -/
structure AlarmedCell where
  now : Nat
  store : RunStore := {}
  flights : List CellFlight := []

/-- What may happen to a run cell between two of its calls to other cells. -/
inductive CellAction
  | tick (ms : Nat)
  | call (op : CellOp)
  | enforceRetention (request : EnforceRetentionRequest)
  | cleanupNow (request : ScheduleCleanupRequest)
  | alarm
  | returns (flight : Nat) (deleted : Nat) (done : Bool)
  | throws (flight : Nat) (error : String)

/-- The transactions that are calls of their own, and not parts of a pass. -/
def CellOp.isRequest : CellOp → Bool
  | .applyEvent _ | .forceDisposeHook .. | .resolveHookTokenClaim .. | .resolveExpiredHookClaim ..
  | .resolveForcedHookClaim _ | .scheduleCleanup _ | .rearmCleanup | .queue _ => true
  | _ => false

namespace AlarmedCell
variable (W : WorldContract) (runId : String) (cell : AlarmedCell)

/-- A page ends or reaches its calls; if it ends, the remaining `pages` follow. -/
def run (others : List CellFlight) (pages : Nat) : RunStore × Option CellPass → AlarmedCell
  | (store, some pass) => { cell with store, flights := ⟨pass, pages⟩ :: others }
  | (store, none) =>
    let (store, flight) := WorkflowRunDO.executePages cell.now pages store
    { cell with store, flights := flight.toList ++ others }

def enforceRetention (request : EnforceRetentionRequest) : AlarmedCell :=
  match WorkflowRunDO.enforceRetention W cell.now request cell.store with
  | .error _ => cell
  | .ok (result, store) =>
    if result.state = .scheduled ∨ result.state = .expired then cell.run cell.flights 2 (store, none)
    else { cell with store }

/-- The record that `cleanupNow` schedules if the cell has none. -/
def scheduleMissing (request : ScheduleCleanupRequest) : Except Thrown RunStore :=
  if cell.store.cleanup.isSome then .ok cell.store
  else (WorkflowRunDO.scheduleCleanup W cell.now request cell.store).map Prod.snd

def cleanupNow (request : ScheduleCleanupRequest) : AlarmedCell :=
  match validateCleanupRequest request false, cell.scheduleMissing W request with
  | .error _, _ | .ok _, .error _ => cell
  | .ok _, .ok store =>
    match WorkflowRunDO.expireCleanupNow W cell.now store with
    | .error _ => { cell with store }
    | .ok store => cell.run cell.flights 0 (WorkflowRunDO.executeScheduledCleanupPage cell.now store)

/-- The alarm fires when it is due, and is consumed by it. -/
def fire : Option AlarmedCell :=
  if cell.store.alarm.any (· ≤ cell.now) then
    some (cell.run cell.flights 0
      (WorkflowRunDO.executeScheduledCleanupPage cell.now { cell.store with alarm := none }))
  else none

/-- One action, where it is possible. -/
def step : CellAction → Option AlarmedCell
  | .tick ms => some { cell with now := cell.now + ms }
  | .call op => if op.isRequest then some { cell with store := op.run W runId cell.now cell.store } else none
  | .enforceRetention request => some (cell.enforceRetention W request)
  | .cleanupNow request => some (cell.cleanupNow W request)
  | .alarm => cell.fire
  | .returns flight deleted done => cell.flights[flight]?.map fun { pass, pages } =>
      cell.run (cell.flights.eraseIdx flight) pages (pass.commit cell.now deleted done cell.store)
  | .throws flight error => cell.flights[flight]?.map fun { pass, pages } =>
      cell.run (cell.flights.eraseIdx flight) pages (pass.recordFailure cell.now error cell.store, none)

end AlarmedCell

/-- The run cells that are reached by their actions, in every order. -/
inductive AlarmReach (W : WorldContract) (runId : String) : AlarmedCell → Prop
  | start (now : Nat) : AlarmReach W runId { now }
  | next {cell after : AlarmedCell} {action : CellAction} (reach : AlarmReach W runId cell)
      (step : cell.step W runId action = some after) : AlarmReach W runId after

namespace CellPass

/-- The page was started for the record that is stored now. -/
def Owns (store : RunStore) : CellPass → Prop
  | .cleanup record _ => WorkflowRunDO.sameCleanup store record = true
  | .terminal record _ => WorkflowRunDO.sameTerminalCleanup store record = true

/-- The page is one of the phase of its record, and one that makes calls. -/
def Fits : CellPass → Prop
  | .cleanup record listed => listed.phase = record.phase ∧ listed ≠ .start ∧ listed ≠ .payload
  | .terminal record listed =>
    match listed with
    | .small .. | .hooks .. => record.phase = .hooks
    | .markers .. => record.phase = .markers
    | .waits => False

end CellPass

/-- How a page leaves the store `before`: it ends, and arms the alarm if it was the
`owner` of a record, or it waits for its calls and has written nothing. -/
inductive PassOutcome (now : Nat) (before : RunStore) (owner : Prop) : RunStore × Option CellPass → Prop
  | ended {after : RunStore} (step : AlarmStep now before after) (armed : owner → after.Armed now) :
      PassOutcome now before owner (after, none)
  | waits {pass : CellPass} (fits : pass.Fits) (owns : owner → pass.Owns before) :
      PassOutcome now before owner (before, some pass)

variable {W : WorldContract} {runId : String} {now : Nat} {store before after : RunStore} {pass : CellPass}

theorem CellPass.Owns.kept (cleanup : after.cleanup = before.cleanup)
    (terminalCleanup : after.terminalCleanup = before.terminalCleanup) (owns : pass.Owns before) :
    pass.Owns after := by
  cases pass with
  | cleanup record => simpa only [CellPass.Owns, WorkflowRunDO.sameCleanup, cleanup] using owns
  | terminal record => simpa only [CellPass.Owns, WorkflowRunDO.sameTerminalCleanup, terminalCleanup] using owns

namespace WorkflowRunDO

theorem sameCleanup_self {record : CleanupRecord} (stored : store.cleanup = some record) :
    sameCleanup store record = true := by
  simp [sameCleanup, stored]

theorem sameTerminalCleanup_self {record : TerminalCleanupRecord} (stored : store.terminalCleanup = some record) :
    sameTerminalCleanup store record = true := by
  simp [sameTerminalCleanup, stored]

/-- A page of the stored record arms the alarm, or waits for its calls. -/
theorem beginCleanup_outcome {record : CleanupRecord} (pending : store.pendingCleanup = some record) :
    PassOutcome now store True (beginCleanup now record store) := by
  obtain ⟨stored, unfinished⟩ := RunStore.pendingCleanup_some pending
  have owned := sameCleanup_self stored
  unfold beginCleanup
  split
  · rename_i retained
    have armed : (executeCleanup now record .start store).Armed now := by
      unfold executeCleanup
      simp only [retained]
      split
      · exact .at_dueAt stored unfinished (.inr rfl)
      · exact commitCleanupPage_alarm.2 owned
    exact .ended (.armed armed) fun _ => armed
  · rename_i phase
    exact .waits ⟨phase.symm, nofun, nofun⟩ fun _ => owned
  · rename_i phase
    exact .waits ⟨phase.symm, nofun, nofun⟩ fun _ => owned
  · rename_i phase
    exact .waits ⟨phase.symm, nofun, nofun⟩ fun _ => owned
  · rename_i payload
    have armed : (executeCleanup now record .payload store).Armed now := by
      unfold executeCleanup
      simp only [payload]
      exact deletePayloadBatch_alarm stored payload
    exact .ended (.armed armed) fun _ => armed
  · rename_i finished
    exact absurd finished unfinished

theorem beginTerminalCleanup_outcome {record : TerminalCleanupRecord}
    (stored : store.terminalCleanup = some record) :
    PassOutcome now store True (beginTerminalCleanup now record store) := by
  have owned := sameTerminalCleanup_self stored
  unfold beginTerminalCleanup
  split
  · rename_i phase
    split <;> exact .waits phase fun _ => owned
  · rename_i phase
    exact .waits phase fun _ => owned
  · rename_i phase
    have armed : (executeTerminalCleanup now record .waits store).Armed now := by
      unfold executeTerminalCleanup
      simp only [phase]
      exact deleteTerminalWaitPage_alarm.2 owned
    exact .ended (.armed armed) fun _ => armed

/-- Whatever record is pending, its page arms the alarm or waits for its calls. -/
theorem executeScheduledCleanupPage_outcome :
    PassOutcome now store True (executeScheduledCleanupPage now store) := by
  unfold executeScheduledCleanupPage
  split
  · rename_i due
    exact beginCleanup_outcome (Option.filter_eq_some_iff.mp due).1
  · rename_i terminal
    exact beginTerminalCleanup_outcome terminal
  · rename_i terminal retention
    have rests : ({ store with alarm := none } : RunStore).Armed now := .at_rest retention terminal
    exact .ended (.armed rests) fun _ => rests
  · rename_i retention
    exact beginCleanup_outcome retention

theorem executePages_alarm {pages : Nat} : AlarmStep now store (executePages now pages store).1 ∧
    ∀ flight, (executePages now pages store).2 = some flight → flight.pass.Fits := by
  induction pages generalizing store with
  | zero => exact ⟨.refl, fun flight same => by cases same⟩
  | succ pages ih =>
    unfold executePages
    split
    · have outcome := @executeScheduledCleanupPage_outcome now store
      generalize executeScheduledCleanupPage now store = result at outcome
      cases outcome with
      | ended step => exact ⟨step.trans ih.1, ih.2⟩
      | waits fits => exact ⟨.refl, fun flight same => by cases same; exact fits⟩
    · exact ⟨.refl, fun flight same => by cases same⟩

end WorkflowRunDO

open WorkflowRunDO

/-- The owner of a record arms the alarm when it ends; any other page writes nothing. -/
theorem CellPass.commit_outcome {deleted : Nat} {done : Bool} (fits : pass.Fits) :
    PassOutcome now store (pass.Owns store) (pass.commit now deleted done store) := by
  cases pass with
  | cleanup record listed =>
    obtain ⟨phase, notStart, notPayload⟩ := fits
    have page : AlarmStep now store (executeCleanup now record (listed.answered deleted done) store) ∧
        (sameCleanup store record = true →
          (executeCleanup now record (listed.answered deleted done) store).Armed now) := by
      unfold executeCleanup
      cases listed with
      | start => exact absurd rfl notStart
      | payload => exact absurd rfl notPayload
      | index =>
        simp only [← phase, CleanupPage.phase, CleanupPage.answered]
        exact commitCleanupPage_alarm
      | streams =>
        simp only [← phase, CleanupPage.phase, CleanupPage.answered]
        exact commitCleanupPage_alarm
      | queues =>
        simp only [← phase, CleanupPage.phase, CleanupPage.answered]
        exact commitCleanupPage_alarm
    exact .ended page.1 page.2
  | terminal record listed =>
    cases listed with
    | small hooks markers =>
      simp only [CellPass.commit]
      split
      · rename_i completed
        obtain ⟨step, armed⟩ := completeSmallTerminalCleanup_alarm completed
        exact .ended step armed
      · exact .waits fits id
    | hooks page more =>
      have paged : executeTerminalCleanup now record (.hooks page more) store =
          deleteTerminalHookPage now record page more store := by
        have phase : record.phase = .hooks := fits
        simp only [executeTerminalCleanup, phase]
      simp only [CellPass.commit, paged]
      exact .ended commitTerminalPage_alarm.1 commitTerminalPage_alarm.2
    | markers page more =>
      have paged : executeTerminalCleanup now record (.markers page more) store =
          deleteTerminalHookMarkerPage now record page more store := by
        have phase : record.phase = .markers := fits
        simp only [executeTerminalCleanup, phase]
      simp only [CellPass.commit, paged]
      exact .ended commitTerminalPage_alarm.1 commitTerminalPage_alarm.2
    | waits => exact fits.elim

/-- A failed page of the owner is armed again after its retry delay. -/
theorem CellPass.recordFailure_outcome {error : String} (fits : pass.Fits) :
    PassOutcome now store (pass.Owns store) (pass.recordFailure now error store, none) := by
  cases pass with
  | cleanup record listed =>
    have unfinished : record.phase ≠ .tombstoned := by
      rw [← fits.1]
      cases listed <;> nofun
    have failed := @recordCleanupFailure_alarm now store error record unfinished
    exact .ended failed.1 failed.2
  | terminal record listed =>
    have failed := @recordTerminalCleanupFailure_alarm now store error record
    exact .ended failed.1 failed.2

/-- The cell is armed, or a page in flight owns one of its records and will arm it. -/
def RunStore.Watched (now : Nat) (flights : List CellFlight) (store : RunStore) : Prop :=
  store.Armed now ∨ store.alarm = none ∧ ∃ flight ∈ flights, flight.pass.Owns store

theorem AlarmStep.watched {flights : List CellFlight} (step : AlarmStep now before after)
    (watched : before.Watched now flights) : after.Watched now flights := by
  cases step with
  | armed armed => exact .inl armed
  | kept cleanup terminalCleanup alarm =>
    rcases watched with armed | ⟨unarmed, flight, member, owns⟩
    · exact .inl (armed.kept cleanup terminalCleanup alarm)
    · exact .inr ⟨alarm.trans unarmed, flight, member, owns.kept cleanup terminalCleanup⟩

namespace AlarmedCell

/-- What holds of a run cell between two of its actions. -/
structure Sound (cell : AlarmedCell) : Prop where
  watched : cell.store.Watched cell.now cell.flights
  fits : ∀ flight ∈ cell.flights, flight.pass.Fits

variable {cell after : AlarmedCell} {others : List CellFlight} {pages : Nat} {owner : Prop}
  {result : RunStore × Option CellPass}

/-- Pages that follow one another leave the alarm as a single one does. -/
theorem run_alarmStep (outcome : PassOutcome cell.now before owner result) :
    AlarmStep cell.now before (cell.run others pages result).store := by
  cases outcome with
  | ended step => exact step.trans executePages_alarm.1
  | waits => exact .refl

/-- The page of an unwatched cell has to be the owner's. -/
theorem Sound.run (outcome : PassOutcome cell.now before owner result)
    (watched : before.Armed cell.now ∨ before.alarm = none ∧ (owner ∨ ∃ flight ∈ others, flight.pass.Owns before))
    (fits : ∀ flight ∈ others, flight.pass.Fits) : (cell.run others pages result).Sound := by
  cases outcome with
  | @ended ended step armed =>
    obtain ⟨later, launched⟩ := @executePages_alarm cell.now ended pages
    have settled : ended.Watched cell.now others := by
      rcases watched with before | ⟨unarmed, owns | others⟩
      · exact step.watched (.inl before)
      · exact .inl (armed owns)
      · exact step.watched (.inr ⟨unarmed, others⟩)
    have more : ∀ flight ∈ others, flight ∈ (executePages cell.now pages ended).2.toList ++ others :=
      fun flight member => List.mem_append_right _ member
    refine ⟨?_, fun flight member => ?_⟩
    · rcases later.watched settled with armed | ⟨unarmed, flight, member, owns⟩
      · exact .inl armed
      · exact .inr ⟨unarmed, flight, more flight member, owns⟩
    · rcases List.mem_append.mp member with first | other
      · exact launched flight (Option.mem_toList.mp first)
      · exact fits flight other
  | @waits pass fitting owns =>
    refine ⟨?_, fun flight member => ?_⟩
    · rcases watched with armed | ⟨unarmed, owned | ⟨flight, member, others⟩⟩
      · exact .inl armed
      · exact .inr ⟨unarmed, _, .head _, owns owned⟩
      · exact .inr ⟨unarmed, flight, .tail _ member, others⟩
    · rcases List.mem_cons.mp member with rfl | other
      · exact fitting
      · exact fits flight other

theorem Sound.continues (sound : cell.Sound) : cell.store.Armed cell.now ∨ cell.store.alarm = none ∧
    (owner ∨ ∃ flight ∈ cell.flights, flight.pass.Owns cell.store) :=
  sound.watched.imp_right fun watched => ⟨watched.1, .inr watched.2⟩

/-- The calls of a page in flight end: it is the owner, or another page is. -/
theorem Sound.ends {index : Nat} {flight : CellFlight} (sound : cell.Sound)
    (present : cell.flights[index]? = some flight)
    (outcome : PassOutcome cell.now cell.store (flight.pass.Owns cell.store) result) :
    (cell.run (cell.flights.eraseIdx index) pages result).Sound := by
  refine .run outcome ?_ fun other member => sound.fits other (List.mem_of_mem_eraseIdx member)
  rcases sound.watched with armed | ⟨unarmed, other, member, owns⟩
  · exact .inl armed
  refine .inr ⟨unarmed, ?_⟩
  obtain ⟨position, found⟩ := List.mem_iff_getElem?.mp member
  by_cases same : position = index
  · rw [same, present] at found
    cases found
    exact .inl owns
  · exact .inr ⟨other, List.mem_eraseIdx_iff_getElem?.mpr ⟨position, same, found⟩, owns⟩

/-- The calls that are no parts of a pass. -/
theorem call_alarmStep {op : CellOp} (call : op.isRequest = true) :
    AlarmStep now store (op.run W runId now store) := by
  refine (op.run_step W runId now store).alarm ?_
  cases op <;> first | rfl | cases call

theorem scheduleMissing_alarm {request : ScheduleCleanupRequest}
    (run : cell.scheduleMissing W request = .ok store) :
    AlarmStep cell.now cell.store store := by
  unfold scheduleMissing at run
  split at run
  · cases run
    exact .refl
  cases scheduled : WorkflowRunDO.scheduleCleanup W cell.now request cell.store with
  | error => simp [scheduled, Except.map] at run
  | ok answer =>
    rw [scheduled] at run
    cases run
    -- the call does not depend on the name of the cell
    exact (@scheduleCleanup_step W "" cell.now cell.store _ request _ scheduled).alarm rfl

theorem Sound.enforceRetention {request : EnforceRetentionRequest} (sound : cell.Sound) :
    (cell.enforceRetention W request).Sound ∧
      AlarmStep cell.now cell.store (cell.enforceRetention W request).store := by
  unfold AlarmedCell.enforceRetention
  split
  · exact ⟨sound, .refl⟩
  rename_i result enforced answer
  have step := (@enforceRetention_step W "" cell.now cell.store enforced request result answer).alarm rfl
  split
  · have outcome : PassOutcome cell.now cell.store False (enforced, none) := .ended step nofun
    exact ⟨.run outcome sound.continues sound.fits, run_alarmStep outcome⟩
  · exact ⟨⟨step.watched sound.watched, sound.fits⟩, step⟩

theorem Sound.cleanupNow {request : ScheduleCleanupRequest} (sound : cell.Sound) :
    (cell.cleanupNow W request).Sound ∧ AlarmStep cell.now cell.store (cell.cleanupNow W request).store := by
  unfold AlarmedCell.cleanupNow
  split
  · exact ⟨sound, .refl⟩
  · exact ⟨sound, .refl⟩
  rename_i valid scheduled missing
  have schedules := scheduleMissing_alarm missing
  split
  · exact ⟨⟨schedules.watched sound.watched, sound.fits⟩, schedules⟩
  rename_i expired answer
  have expires := schedules.trans
    ((@expireCleanupNow_step W "" cell.now _ expired answer).alarm rfl)
  have outcome := @executeScheduledCleanupPage_outcome cell.now expired
  have watched : expired.Watched cell.now cell.flights := expires.watched sound.watched
  refine ⟨.run outcome ?_ sound.fits, expires.trans (run_alarmStep outcome)⟩
  exact watched.imp_right fun watched => ⟨watched.1, .inl trivial⟩

/-- The page of a fired alarm owns the record it reads. -/
theorem Sound.fire (sound : cell.Sound) (fired : cell.fire = some after) : after.Sound := by
  unfold AlarmedCell.fire at fired
  split at fired
  · cases fired
    exact .run executeScheduledCleanupPage_outcome (.inr ⟨rfl, .inl trivial⟩) sound.fits
  · cases fired

theorem Sound.step {action : CellAction} (sound : cell.Sound) (step : cell.step W runId action = some after) :
    after.Sound ∧ (action ≠ .alarm → AlarmStep cell.now cell.store after.store) := by
  cases action with
  | tick ms =>
    cases step
    have watched : cell.store.Watched (cell.now + ms) cell.flights :=
      sound.watched.imp_left fun armed => armed.later (Nat.le_add_right ..)
    exact ⟨⟨watched, sound.fits⟩, fun _ => .refl⟩
  | call op =>
    simp only [AlarmedCell.step] at step
    split at step
    · rename_i call
      cases step
      have stepped := @call_alarmStep W runId cell.now cell.store op call
      exact ⟨⟨stepped.watched sound.watched, sound.fits⟩, fun _ => stepped⟩
    · cases step
  | enforceRetention request =>
    cases step
    exact ⟨sound.enforceRetention.1, fun _ => sound.enforceRetention.2⟩
  | cleanupNow request =>
    cases step
    exact ⟨sound.cleanupNow.1, fun _ => sound.cleanupNow.2⟩
  | alarm => exact ⟨sound.fire step, fun other => absurd rfl other⟩
  | returns index deleted done =>
    obtain ⟨flight, present, rfl⟩ := Option.map_eq_some_iff.mp step
    have fits := sound.fits flight (List.mem_of_getElem? present)
    have outcome := @CellPass.commit_outcome cell.now cell.store flight.pass deleted done fits
    exact ⟨sound.ends present outcome, fun _ => run_alarmStep outcome⟩
  | throws index error =>
    obtain ⟨flight, present, rfl⟩ := Option.map_eq_some_iff.mp step
    have fits := sound.fits flight (List.mem_of_getElem? present)
    have outcome := @CellPass.recordFailure_outcome cell.now cell.store flight.pass error fits
    exact ⟨sound.ends present outcome, fun _ => run_alarmStep outcome⟩

end AlarmedCell

theorem AlarmReach.sound {cell : AlarmedCell} (reach : AlarmReach W runId cell) : cell.Sound := by
  induction reach with
  | start => exact ⟨.inl (RunStore.Armed.at_rest rfl rfl), fun flight member => by cases member⟩
  | next _ step ih => exact (ih.step step).1

/-- A cell with no page in flight has an alarm for its pending cleanup, due no later than
the next tick, the cleanup deadline and the retry delay. No action takes it away: only a
page in flight, which owns the record, does without one. -/
theorem pendingCleanup_armed {W : WorldContract} {runId : String} {cell : AlarmedCell}
    (reach : AlarmReach W runId cell) :
    (cell.flights = [] → cell.store.Armed cell.now) ∧
      ∀ action after, cell.step W runId action = some after → after.store.Pending → after.store.alarm = none →
        (cell.store.alarm = none ∨ action = .alarm) ∧ ∃ flight ∈ after.flights, flight.pass.Owns after.store := by
  have sound := reach.sound
  constructor
  · intro quiet
    rcases sound.watched with armed | ⟨-, flight, member, -⟩
    · exact armed
    · rw [quiet] at member
      cases member
  · intro action after step pending unarmed
    obtain ⟨soundAfter, keeps⟩ := sound.step step
    constructor
    · by_cases fired : action = .alarm
      · exact .inr fired
      · exact .inl ((keeps fired).unarmed pending unarmed).2.2
    · rcases soundAfter.watched with armed | ⟨-, owned⟩
      · obtain ⟨due, alarm, -⟩ := armed pending
        rw [unarmed] at alarm
        cases alarm
      · exact owned

/-- A completed run, whose terminal cleanup is over, waits for its retention deadline. -/
theorem pendingCleanup_armed_retained : ∃ cell, AlarmReach .unary "run" cell ∧ cell.flights = [] ∧
    cell.store.terminalCleanup = none ∧ ∃ due, cell.store.alarm = some due ∧
      due ≤ cell.store.alarmLimit cell.now := by
  have created := @AlarmReach.next .unary "run" _ _
    (.call (.resilientStart "run" "deployment" "workflow" (.string "input"))) (.start 1) rfl
  have later := @AlarmReach.next .unary "run" _ _ (.tick 1) created rfl
  have completed := @AlarmReach.next .unary "run" _ _ (.call (.completeRetained "run")) later rfl
  have due := @AlarmReach.next .unary "run" _ _ (.tick 1) completed rfl
  have fired := @AlarmReach.next .unary "run" _ _ .alarm due rfl
  have swept := @AlarmReach.next .unary "run" _ _ (.returns 0 0 false) fired rfl
  exact ⟨_, swept, rfl, rfl, (pendingCleanup_armed swept).1 rfl (.inl rfl)⟩

end CelldWorld
