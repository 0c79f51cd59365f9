import CelldWorld.QueueWorld

namespace CelldWorld

/-- How a platform treats an alarm handler that throws: after `failureLimit` failures
in a row it drops the alarm, before that it retries after a delay. -/
structure AlarmPlatform where
  failureLimit : Nat
  retryDelay : Nat → Nat

/-- The retry ladder of the fake fleet. -/
def AlarmPlatform.fakeFleet : AlarmPlatform := ⟨6, fun failures => 2000 * 2 ^ (failures - 1)⟩

/-- The external calls of the orphan alarm, in their order. -/
inductive OrphanCall
  | deleteQueuePayloadObjects | unregisterQueuePayload
  deriving DecidableEq, Repr

/-- An orphan cell with its alarm. `running` is the handler at one of its external calls,
with the record it leased; `deletedKeys` are the objects whose deletion succeeded. -/
structure OrphanCell where
  now : Nat
  orphan : Option QueuePayloadOrphanState := none
  alarm : Option Nat := none
  running : Option (QueuePayloadOrphanState × OrphanCall) := none
  alarmRetryCount : Nat := 0
  alarmAbandoned : Bool := false
  deletedKeys : List String := []
  deriving DecidableEq, Repr

inductive OrphanAction
  | schedule (orphan : QueuePayloadOrphan)
  | cancel (messageId : String)
  | advance (ms : Nat)
  | fire
  | callReturns
  | callThrows
  deriving DecidableEq, Repr

namespace OrphanCell
variable (platform : AlarmPlatform) (cell : OrphanCell)

def schedule (orphan : QueuePayloadOrphan) : OrphanCell :=
  match WorkflowRunDO.scheduleQueuePayloadOrphan orphan cell.orphan with
  | .error _ => cell
  | .ok next => { cell with orphan := next, alarm := next.map (·.expiresAt) }

def cancel (messageId : String) : OrphanCell :=
  match WorkflowRunDO.cancelQueuePayloadOrphan messageId cell.orphan with
  | .error _ => cell
  | .ok next => { cell with orphan := next, alarm := if next = cell.orphan then cell.alarm else none }

/-- The handler up to its first external call. The platform has consumed the alarm; a
record that is not due is armed again, and an absent one leaves no alarm. -/
def fire : OrphanCell :=
  match WorkflowRunDO.leaseQueuePayloadOrphan cell.now cell.orphan with
  | (some leased, orphan) =>
    { cell with orphan, alarm := none, running := some (leased, .deleteQueuePayloadObjects) }
  | (none, orphan) => { cell with orphan, alarm := orphan.map (·.expiresAt), alarmRetryCount := 0 }

/-- The handler's last transaction; returning ends the row of failures. -/
def finish (leased : QueuePayloadOrphanState) : OrphanCell :=
  let orphan := WorkflowRunDO.finishQueuePayloadOrphan leased cell.orphan
  { cell with
    orphan
    alarm := if orphan = cell.orphan then cell.alarm else none
    running := none
    alarmRetryCount := 0 }

/-- The platform's answer to a handler that throws. -/
def throws : OrphanCell :=
  let failures := cell.alarmRetryCount + 1
  let stopped := { cell with running := none, alarmRetryCount := failures }
  if platform.failureLimit ≤ failures then { stopped with alarmAbandoned := true }
  else { stopped with alarm := cell.alarm.or (some (cell.now + platform.retryDelay failures)) }

/-- One action, where it is possible: alarms fire when due, one handler at a time. -/
def step (action : OrphanAction) : Option OrphanCell :=
  match action with
  | .schedule orphan => some (cell.schedule orphan)
  | .cancel messageId => some (cell.cancel messageId)
  | .advance ms => some { cell with now := cell.now + ms }
  | .fire =>
    if cell.running = none ∧ cell.alarmAbandoned = false ∧ cell.alarm.any (· ≤ cell.now) then some cell.fire
    else none
  | .callReturns => cell.running.map fun (leased, call) =>
      match call with
      | .deleteQueuePayloadObjects =>
        { cell with
          running := some (leased, .unregisterQueuePayload)
          deletedKeys := leased.key :: cell.deletedKeys }
      | .unregisterQueuePayload => cell.finish leased
  | .callThrows => cell.running.map fun _ => cell.throws platform

/-- The cell after some actions, if all of them are possible. -/
def steps (actions : List OrphanAction) : Option OrphanCell :=
  actions.foldlM (fun cell action => cell.step platform action) cell

theorem steps_cons (action : OrphanAction) (actions : List OrphanAction) :
    cell.steps platform (action :: actions) =
      (cell.step platform action).bind fun after => after.steps platform actions :=
  rfl

theorem steps_nil : cell.steps platform [] = some cell :=
  rfl

/-- A stored record has an alarm while no handler runs. -/
def Armed : Prop :=
  cell.running = none → cell.orphan.isSome → cell.alarm.isSome ∧ cell.alarmAbandoned = false

end OrphanCell

/-- The orphan cells that are reached by admitted actions. -/
inductive OrphanReach (platform : AlarmPlatform) (admits : OrphanCell → OrphanAction → Prop) :
    OrphanCell → Prop
  | start (now : Nat) : OrphanReach platform admits { now }
  | next {cell after : OrphanCell} {action : OrphanAction} (reach : OrphanReach platform admits cell)
      (admitted : admits cell action) (step : cell.step platform action = some after) :
      OrphanReach platform admits after

/-- The failures that the platform retries. -/
def AlarmPlatform.Retries (platform : AlarmPlatform) (cell : OrphanCell) (action : OrphanAction) : Prop :=
  action = .callThrows → cell.alarmRetryCount + 1 < platform.failureLimit

namespace OrphanCell

/-- A record whose deletion has begun is due, one whose deletion has not is armed at its
deadline. -/
structure Scheduled (cell : OrphanCell) (record : QueuePayloadOrphanState) : Prop where
  due : record.deleting = true → record.expiresAt ≤ cell.now
  deadline : record.deleting = false → cell.alarm = some record.expiresAt

/-- What holds of the orphan cell between two actions. -/
structure Sound (cell : OrphanCell) : Prop where
  kept : cell.alarmAbandoned = false
  stored : ∀ record, cell.orphan = some record → cell.Scheduled record
  idle : cell.running = none → ∀ record, cell.orphan = some record → cell.alarm.isSome
  /-- While a handler runs, the record is the leased one or was scheduled after it. -/
  leased : ∀ record call, cell.running = some (record, call) → record.deleting = true ∧
    ∀ other, cell.orphan = some other → other.deleting = true → other = record

theorem Sound.start (now : Nat) : Sound { now } where
  kept := rfl
  stored := nofun
  idle := nofun
  leased := nofun

variable {platform : AlarmPlatform} {cell after : OrphanCell}

theorem Sound.schedule (sound : cell.Sound) (orphan : QueuePayloadOrphan) : (cell.schedule orphan).Sound := by
  unfold OrphanCell.schedule WorkflowRunDO.scheduleQueuePayloadOrphan
  split
  · exact sound
  rename_i next scheduled
  split at scheduled
  · cases scheduled
  split at scheduled
  · cases scheduled
  split at scheduled <;> cases scheduled
  exact {
    kept := sound.kept
    stored := fun record same => by
      cases same
      exact ⟨nofun, fun _ => rfl⟩
    idle := fun _ _ _ => rfl
    leased := fun record call running =>
      ⟨(sound.leased record call running).1, fun other same deleting => by cases same; cases deleting⟩ }

theorem Sound.cancel (sound : cell.Sound) (messageId : String) : (cell.cancel messageId).Sound := by
  unfold OrphanCell.cancel WorkflowRunDO.cancelQueuePayloadOrphan
  split
  · exact sound
  rename_i next cancelled
  split at cancelled
  · cases cancelled
  obtain rfl := Except.ok.inj cancelled
  by_cases same : cell.orphan.filter (·.messageId ≠ messageId) = cell.orphan
  · simp only [same, if_true]
    exact sound
  · have gone : cell.orphan.filter (·.messageId ≠ messageId) = none := by
      cases stored : cell.orphan with
      | none => rfl
      | some record =>
        rw [stored] at same
        by_cases other : decide (record.messageId ≠ messageId) = true
        · exact absurd (by rw [Option.filter_some, if_pos other]) same
        · rw [Option.filter_some, if_neg other]
    rw [gone]
    exact {
      kept := sound.kept
      stored := nofun
      idle := nofun
      leased := fun record call running => ⟨(sound.leased record call running).1, nofun⟩ }

theorem Sound.advance (sound : cell.Sound) (ms : Nat) : Sound { cell with now := cell.now + ms } where
  kept := sound.kept
  stored record same :=
    { due := fun deleting => Nat.le_add_right_of_le ((sound.stored record same).due deleting)
      deadline := (sound.stored record same).deadline }
  idle := sound.idle
  leased := sound.leased

theorem Sound.fire (sound : cell.Sound) (ready : cell.running = none) : cell.fire.Sound := by
  unfold OrphanCell.fire WorkflowRunDO.leaseQueuePayloadOrphan
  cases stored : cell.orphan with
  | none => exact {
      kept := sound.kept
      stored := nofun
      idle := nofun
      leased := fun record call running => by
        rw [ready] at running
        cases running }
  | some record =>
    simp only
    by_cases early : cell.now < record.expiresAt
    · simp only [early, if_true]
      exact {
        kept := sound.kept
        stored := fun other same => by
          cases same
          exact ⟨fun deleting => (sound.stored record stored).due deleting, fun _ => rfl⟩
        idle := fun _ _ _ => rfl
        leased := fun other call running => by
          rw [ready] at running
          cases running }
    · have due : record.expiresAt ≤ cell.now := Nat.le_of_not_lt early
      simp only [early, if_false]
      cases deleting : record.deleting
      all_goals
        exact {
          kept := sound.kept
          stored := fun other same => by
            cases same
            exact ⟨fun _ => due, fun undeleted => by simp_all⟩
          idle := nofun
          leased := fun other call running => by
            cases running
            refine ⟨?_, fun kept same _ => (Option.some.inj same).symm⟩
            first | exact deleting | rfl }

/-- The record that the handler leased is removed; one scheduled since stays, with its alarm. -/
theorem Sound.finish {record : QueuePayloadOrphanState} {call : OrphanCall} (sound : cell.Sound)
    (running : cell.running = some (record, call)) : (cell.finish record).Sound := by
  obtain ⟨-, same⟩ := sound.leased record call running
  have removed : ∀ other, cell.orphan = some other →
      WorkflowRunDO.finishQueuePayloadOrphan record cell.orphan =
        if other.deleting then none else cell.orphan := by
    intro other stored
    unfold WorkflowRunDO.finishQueuePayloadOrphan
    cases deleting : other.deleting with
    | false => simp [stored, deleting]
    | true =>
      obtain rfl := same other stored deleting
      simp [stored, deleting]
  have remains : ∀ other, (cell.finish record).orphan = some other →
      cell.orphan = some other ∧ other.deleting = false := by
    intro other kept
    cases stored : cell.orphan with
    | none =>
      simp only [OrphanCell.finish, stored] at kept
      cases kept
    | some first =>
      simp only [OrphanCell.finish, removed first stored] at kept
      split at kept
      · cases kept
      · rename_i undeleted
        obtain rfl := Option.some.inj (stored.symm.trans kept)
        exact ⟨rfl, by simpa using undeleted⟩
  have alarm : ∀ other, (cell.finish record).orphan = some other → (cell.finish record).alarm = cell.alarm := by
    intro other kept
    obtain ⟨stored, undeleted⟩ := remains other kept
    simp [OrphanCell.finish, removed other stored, undeleted]
  exact {
    kept := sound.kept
    stored := fun other kept => by
      obtain ⟨stored, undeleted⟩ := remains other kept
      refine ⟨fun deleting => absurd (undeleted.symm.trans deleting) Bool.false_ne_true, fun _ => ?_⟩
      rw [alarm other kept]
      exact (sound.stored other stored).deadline undeleted
    idle := fun _ other kept => by
      obtain ⟨stored, undeleted⟩ := remains other kept
      rw [alarm other kept, (sound.stored other stored).deadline undeleted]
      rfl
    leased := nofun }

/-- A failure that the platform retries leaves an alarm. -/
theorem Sound.throws (sound : cell.Sound) (retried : cell.alarmRetryCount + 1 < platform.failureLimit) :
    (cell.throws platform).Sound := by
  unfold OrphanCell.throws
  simp only [Nat.not_le.mpr retried, if_false]
  exact {
    kept := sound.kept
    stored := fun record stored =>
      { due := (sound.stored record stored).due
        deadline := fun undeleted => by rw [(sound.stored record stored).deadline undeleted]; rfl }
    idle := fun _ _ _ => by cases cell.alarm <;> rfl
    leased := nofun }

theorem Sound.step {action : OrphanAction} (sound : cell.Sound) (retries : platform.Retries cell action)
    (step : cell.step platform action = some after) : after.Sound := by
  cases action with
  | schedule orphan => exact Option.some.inj step ▸ sound.schedule orphan
  | cancel messageId => exact Option.some.inj step ▸ sound.cancel messageId
  | advance ms => exact Option.some.inj step ▸ sound.advance ms
  | fire =>
    obtain ⟨ready, fired⟩ := Option.ite_none_right_eq_some.mp step
    exact Option.some.inj fired ▸ sound.fire ready.1
  | callReturns =>
    obtain ⟨⟨record, call⟩, running, returned⟩ := Option.map_eq_some_iff.mp step
    cases call with
    | deleteQueuePayloadObjects =>
      subst returned
      exact {
        kept := sound.kept
        stored := fun other stored => ⟨(sound.stored other stored).due, (sound.stored other stored).deadline⟩
        idle := nofun
        leased := fun other call same => by
          cases same
          exact sound.leased record _ running }
    | unregisterQueuePayload => exact returned ▸ sound.finish running
  | callThrows =>
    obtain ⟨⟨record, call⟩, running, returned⟩ := Option.map_eq_some_iff.mp step
    exact returned ▸ sound.throws (retries rfl)

theorem Sound.armed (sound : cell.Sound) : cell.Armed := by
  intro ready stored
  obtain ⟨record, stored⟩ := Option.isSome_iff_exists.mp stored
  exact ⟨sound.idle ready record stored, sound.kept⟩

end OrphanCell

theorem OrphanReach.sound {platform : AlarmPlatform} {cell : OrphanCell}
    (reach : OrphanReach platform platform.Retries cell) : cell.Sound := by
  induction reach with
  | start now => exact .start now
  | next _ retries step ih => exact ih.step retries step

namespace OrphanCell

/-- The next alarm, whenever it runs, either finds the record early and arms it at its
deadline, or deletes the object and the record when its calls return. -/
def Recovers (platform : AlarmPlatform) (cell : OrphanCell) : Prop :=
  cell.running = none → ∀ record at_, cell.orphan = some record → cell.alarm = some at_ →
    ∀ ms, at_ ≤ cell.now + ms →
      (cell.now + ms < record.expiresAt → ∃ after,
        cell.steps platform [.advance ms, .fire] = some after ∧
          after.running = none ∧ after.orphan = some record ∧ after.alarm = some record.expiresAt) ∧
      (record.expiresAt ≤ cell.now + ms → ∃ after,
        cell.steps platform [.advance ms, .fire, .callReturns, .callReturns] = some after ∧
          after.running = none ∧ after.orphan = none ∧ record.key ∈ after.deletedKeys)

theorem Sound.recovers {platform : AlarmPlatform} {cell : OrphanCell} (sound : cell.Sound) :
    cell.Recovers platform := by
  intro ready record at_ stored armed ms due
  have fires : OrphanCell.step platform { cell with now := cell.now + ms } .fire =
      some (OrphanCell.fire { cell with now := cell.now + ms }) := by
    unfold OrphanCell.step
    simp [ready, sound.kept, armed, due]
  constructor
  · intro early
    refine ⟨OrphanCell.fire { cell with now := cell.now + ms }, ?_, ?_⟩
    · rw [steps_cons]
      change Option.bind (OrphanCell.step platform { cell with now := cell.now + ms } .fire) _ = _
      rw [fires]
      rfl
    · simp [OrphanCell.fire, WorkflowRunDO.leaseQueuePayloadOrphan, stored, early, ready]
  · intro late
    obtain ⟨leased, key, deleting, leases⟩ : ∃ leased : QueuePayloadOrphanState,
        leased.key = record.key ∧ leased.deleting = true ∧
        OrphanCell.fire { cell with now := cell.now + ms } =
          { cell with
            now := cell.now + ms
            orphan := some leased
            alarm := none
            running := some (leased, .deleteQueuePayloadObjects) } := by
      unfold OrphanCell.fire WorkflowRunDO.leaseQueuePayloadOrphan
      simp only [stored, Nat.not_lt.mpr late, if_false]
      cases deleting : record.deleting
      · exact ⟨{ record with generation := record.generation + 1, deleting := true }, rfl, rfl, rfl⟩
      · exact ⟨record, rfl, deleting, rfl⟩
    let ran : OrphanCell := { cell with now := cell.now + ms, orphan := some leased, alarm := none
                                        deletedKeys := leased.key :: cell.deletedKeys }
    have removed : (ran.finish leased).orphan = none := by
      simp [ran, OrphanCell.finish, WorkflowRunDO.finishQueuePayloadOrphan, deleting]
    refine ⟨ran.finish leased, ?_, rfl, removed, key ▸ List.mem_cons_self⟩
    rw [steps_cons]
    change Option.bind (OrphanCell.step platform { cell with now := cell.now + ms } .fire) _ = _
    rw [fires, leases]
    rfl

end OrphanCell

/-- A handler that throws when the platform gives up leaves a stored record without an alarm. -/
theorem OrphanCell.step_drops {platform : AlarmPlatform} {cell after : OrphanCell}
    {action : OrphanAction} (dropped : ¬ platform.Retries cell action)
    (step : cell.step platform action = some after) (stored : cell.orphan.isSome) : ¬ after.Armed := by
  obtain ⟨rfl, limit⟩ := Classical.not_imp.mp dropped
  obtain ⟨⟨record, call⟩, -, returned⟩ := Option.map_eq_some_iff.mp step
  obtain rfl : cell.throws platform = after := returned
  unfold OrphanCell.throws
  rw [if_pos (Nat.not_lt.mp limit)]
  intro armed
  cases (armed rfl stored).2

/-- While the platform retries every failure, a stored record has an alarm, and the next
alarm whose calls return deletes it; a failure that is not retried leaves it without one. -/
theorem orphanRecord_armed (platform : AlarmPlatform) :
    (∀ cell, OrphanReach platform platform.Retries cell → cell.Armed ∧ cell.Recovers platform) ∧
      ∀ cell action after, OrphanReach platform platform.Retries cell →
        cell.step platform action = some after → cell.orphan.isSome →
          ¬ platform.Retries cell action → ¬ after.Armed :=
  ⟨fun _ reach => ⟨reach.sound.armed, reach.sound.recovers⟩,
    fun _ _ _ _ step stored dropped => OrphanCell.step_drops dropped step stored⟩

/-- A cell whose payload is due. -/
def dueOrphan : OrphanCell :=
  OrphanCell.schedule { now := 1 } { messageId := "message", runId := "run", key := "payload", expiresAt := 1 }

theorem OrphanReach.dueOrphan {platform : AlarmPlatform} {admits : OrphanCell → OrphanAction → Prop}
    (admitted : ∀ cell orphan, admits cell (.schedule orphan)) : OrphanReach platform admits dueOrphan :=
  .next (.start 1)
    (admitted { now := 1 } { messageId := "message", runId := "run", key := "payload", expiresAt := 1 }) rfl

/-- After a failed deletion the record is armed, and the retry deletes it. -/
theorem orphanRecord_armed_once :
    (OrphanCell.throws .fakeFleet dueOrphan.fire).Armed ∧
      (OrphanCell.throws .fakeFleet dueOrphan.fire).Recovers .fakeFleet := by
  have scheduled : OrphanReach .fakeFleet AlarmPlatform.fakeFleet.Retries dueOrphan := .dueOrphan nofun
  have fires : dueOrphan.step .fakeFleet .fire = some dueOrphan.fire := by decide +kernel
  have fired : OrphanReach .fakeFleet AlarmPlatform.fakeFleet.Retries dueOrphan.fire :=
    .next scheduled (fun same => by cases same) fires
  have throws : dueOrphan.fire.step .fakeFleet .callThrows =
      some (OrphanCell.throws .fakeFleet dueOrphan.fire) := by decide +kernel
  exact (orphanRecord_armed .fakeFleet).1 _ (.next fired (fun _ => by decide +kernel) throws)

theorem OrphanReach.steps {platform : AlarmPlatform} {cell after : OrphanCell} {actions : List OrphanAction}
    (reach : OrphanReach platform (fun _ _ => True) cell)
    (steps : cell.steps platform actions = some after) : OrphanReach platform (fun _ _ => True) after := by
  induction actions generalizing cell with
  | nil =>
    obtain rfl := Option.some.inj steps
    exact reach
  | cons action actions ih =>
    rw [OrphanCell.steps_cons] at steps
    obtain ⟨middle, step, rest⟩ := Option.bind_eq_some_iff.mp steps
    exact ih (.next reach trivial step) rest

/-- Six failed deletions in a row leave the record without an alarm. -/
theorem orphanRecord_abandoned : ∃ cell, OrphanReach .fakeFleet (fun _ _ => True) cell ∧ ¬ cell.Armed := by
  have failed : ∃ cell, dueOrphan.steps .fakeFleet
      ((List.replicate 6 [.fire, .callThrows, .advance 64000]).flatten) = some cell ∧
        cell.running = none ∧ cell.orphan.isSome ∧ cell.alarmAbandoned = true := by
    decide +kernel
  obtain ⟨cell, steps, ready, stored, abandoned⟩ := failed
  have reach : OrphanReach .fakeFleet (fun _ _ => True) dueOrphan := .dueOrphan fun _ _ => trivial
  refine ⟨cell, reach.steps steps, fun armed => ?_⟩
  rw [(armed ready stored).2] at abandoned
  cases abandoned

end CelldWorld
