import CelldWorld.CleanupLedger

namespace CelldWorld

variable {W : WorldContract} {runId : String} {now : Nat} {system after : RetentionSystem}

/-- A pass over an expired run, whose page is all that is left unless it says otherwise. -/
def CleanupPass.Listed (now : Nat) (store : RunStore) (pass : CleanupPass) : Prop :=
  (pass.record.phase ≠ .retained → (store.tombstoneFrom now).isSome) ∧
    match pass with
    | .indexListed record markers more => record.phase = .index ∧
      (more = false → ∀ key, store.has (.hookMarker key) = true → key ∈ markers)
    | .queuesListed record page more => record.phase = .queues ∧ page.Nodup ∧
      (more = false → ∀ id, store.has (.queuePayload id) = true → id ∈ page)
    | _ => True

/-- What joins the run cell, the pages that passes have listed, and what they have removed. -/
structure RetentionSystem.Counted (system : RetentionSystem) : Prop where
  passes : ∀ pass ∈ system.passes, pass.Listed system.now system.cell
  unmarked : system.cell.Reached .streams → ∀ key, system.cell.has (.hookMarker key) = false
  unregistered : system.cell.Reached .payload → ∀ id, system.cell.has (.queuePayload id) = false
  removed : ∀ key ∈ system.ledger.registrations ++ system.ledger.keys, key.isPayload = true ∧
    (system.cell.tombstoneFrom system.now).isSome ∧ system.cell.has key = false
  registrations : system.ledger.registrations.Nodup
  keys : system.ledger.keys.Nodup
  uncounted : WorkflowRunDO.getCleanupStatus system.cell = none →
    system.ledger.registrations = [] ∧ system.ledger.missed = [] ∧ system.ledger.keys = []
  counts : ∀ record, WorkflowRunDO.getCleanupStatus system.cell = some record →
    record.deletedQueuePayloads = system.ledger.registrations.length + system.ledger.missed.length ∧
      record.deletedPayloadKeys = system.ledger.keys.length

/-- A run whose cleanup record has left `retained` is expired. -/
theorem RunStore.Reached.expired {phase : CleanupPhase} {store : RunStore} (reached : store.Reached phase)
    (late : 0 < phase.rank) : (store.tombstoneFrom now).isSome := by
  obtain ⟨record, status, rank⟩ := reached
  rw [RunStore.tombstoneFrom_isSome_iff]
  unfold WorkflowRunDO.getCleanupStatus at status
  cases stored : store.cleanup with
  | some other =>
    rw [stored] at status
    obtain rfl := Option.some.inj status
    refine .inr ⟨other, rfl, fun retained => ?_⟩
    rw [retained] at rank
    exact absurd rank (Nat.not_le_of_lt late)
  | none =>
    rw [stored, Option.none_or] at status
    obtain ⟨tombstone, gone, -⟩ := Option.map_eq_some_iff.mp status
    exact .inl (by rw [gone]; rfl)

/-- Keys are only deleted once the run has expired, so a page stays complete. -/
theorem CleanupPass.Listed.mono {pass : CleanupPass} {later : Nat} {store cell : RunStore}
    (listed : pass.Listed now store)
    (stays : (store.tombstoneFrom now).isSome → (cell.tombstoneFrom later).isSome)
    (shrinks : (store.tombstoneFrom now).isSome → RunStore.Shrinks store cell) : pass.Listed later cell := by
  obtain ⟨expired, page⟩ := listed
  refine ⟨fun left => stays (expired left), ?_⟩
  cases pass with
  | indexListed record markers more =>
    obtain ⟨phase, all⟩ := page
    have gone := expired (by rw [CleanupPass.record, phase]; nofun)
    exact ⟨phase, fun last key kept => all last key (shrinks gone _ rfl kept)⟩
  | queuesListed record page more =>
    obtain ⟨phase, nodup, all⟩ := page
    have gone := expired (by rw [CleanupPass.record, phase]; nofun)
    exact ⟨phase, nodup, fun last id kept => all last id (shrinks gone _ rfl kept)⟩
  | _ => trivial

namespace RetentionSystem.Counted

theorem start {start : Nat} : Counted { now := start } where
  passes _ member := by cases member
  unmarked reached := by
    obtain ⟨record, status, -⟩ := reached
    cases status
  unregistered reached := by
    obtain ⟨record, status, -⟩ := reached
    cases status
  removed _ member := by cases member
  registrations := .nil
  keys := .nil
  uncounted _ := ⟨rfl, rfl, rfl⟩
  counts _ status := by cases status

/-- A step that leaves the cell and its part of the ledger alone. -/
theorem frame (counted : system.Counted) (forward : system.now ≤ after.now) (cell : after.cell = system.cell)
    (registrations : after.ledger.registrations = system.ledger.registrations)
    (missed : after.ledger.missed = system.ledger.missed) (keys : after.ledger.keys = system.ledger.keys)
    (passes : ∀ pass ∈ after.passes, pass ∈ system.passes ∨ pass.Listed system.now system.cell) :
    after.Counted := by
  have stays (before : (system.cell.tombstoneFrom system.now).isSome) :
      (system.cell.tombstoneFrom after.now).isSome :=
    RecordStep.expired (@RecordStep.refl after.now system.cell .rearmCleanup) forward before
  refine ⟨fun pass member => ?_, ?_, ?_, fun key member => ?_, ?_, ?_, ?_, ?_⟩
  · have listed : pass.Listed system.now system.cell := (passes pass member).elim (counted.passes pass) id
    rw [cell]
    exact listed.mono stays fun _ => .refl
  · rw [cell]
    exact counted.unmarked
  · rw [cell]
    exact counted.unregistered
  · rw [registrations, keys] at member
    obtain ⟨paid, before, gone⟩ := counted.removed key member
    rw [cell]
    exact ⟨paid, stays before, gone⟩
  · rw [registrations]
    exact counted.registrations
  · rw [keys]
    exact counted.keys
  · rw [cell, registrations, missed, keys]
    exact counted.uncounted
  · rw [cell, registrations, missed, keys]
    exact counted.counts

/-- A transaction of the cell: it deletes keys once the run is expired, and `lost` and
`paid` of them are entered into the ledger. -/
theorem withCell {cell : RunStore} {ledger : CleanupLedger} {lost paid : List StoreKey} (counted : system.Counted)
    (stays : (system.cell.tombstoneFrom system.now).isSome → (cell.tombstoneFrom system.now).isSome)
    (shrinks : (system.cell.tombstoneFrom system.now).isSome → RunStore.Shrinks system.cell cell)
    (unmarked : cell.Reached .streams → system.cell.Reached .streams ∨ ∀ key, cell.has (.hookMarker key) = false)
    (unregistered : cell.Reached .payload → system.cell.Reached .payload ∨ ∀ id,
      cell.has (.queuePayload id) = false)
    (registrations : ledger.registrations = lost ++ system.ledger.registrations)
    (keys : ledger.keys = paid ++ system.ledger.keys) (lostNodup : lost.Nodup) (paidNodup : paid.Nodup)
    (deleted : ∀ key ∈ lost ++ paid, key ∈ system.cell.lost cell ∧ (system.cell.tombstoneFrom system.now).isSome)
    (uncounted : WorkflowRunDO.getCleanupStatus cell = none →
      ledger.registrations = [] ∧ ledger.missed = [] ∧ ledger.keys = [])
    (counts : ∀ record, WorkflowRunDO.getCleanupStatus cell = some record →
      record.deletedQueuePayloads = ledger.registrations.length + ledger.missed.length ∧
        record.deletedPayloadKeys = ledger.keys.length) :
    Counted { system with cell, ledger } := by
  have gone (expired : (system.cell.tombstoneFrom system.now).isSome) {key : StoreKey}
    (paid : key.isPayload = true)
      (absent : system.cell.has key = false) : cell.has key = false := by
    rw [← Bool.not_eq_true] at absent ⊢
    exact fun kept => absent (shrinks expired key paid kept)
  have fresh {old new : List StoreKey} (nodup : new.Nodup) (oldNodup : old.Nodup)
      (listed : ∀ key ∈ new, key ∈ system.cell.lost cell) (before : ∀ key ∈ old, system.cell.has key = false) :
      (new ++ old).Nodup := by
    refine List.nodup_append.mpr ⟨nodup, oldNodup, fun key first other last same => ?_⟩
    have stored := (RunStore.mem_lost.mp (listed key first)).1
    rw [same, before other last] at stored
    cases stored
  refine ⟨?_, ?_, ?_, ?_, ?_, ?_, uncounted, counts⟩
  · exact fun pass member => (counted.passes pass member).mono stays shrinks
  · intro reached key
    rcases unmarked reached with before | none_
    · exact gone (before.expired (by decide)) rfl (counted.unmarked before key)
    · exact none_ key
  · intro reached id
    rcases unregistered reached with before | none_
    · exact gone (before.expired (by decide)) rfl (counted.unregistered before id)
    · exact none_ id
  · intro key member
    have origin : key ∈ lost ++ paid ∨ key ∈ system.ledger.registrations ++ system.ledger.keys := by
      rw [registrations, keys, List.mem_append, List.mem_append, List.mem_append] at member
      rw [List.mem_append, List.mem_append]
      rcases member with (new | old) | new | old
      · exact .inl (.inl new)
      · exact .inr (.inl old)
      · exact .inl (.inr new)
      · exact .inr (.inr old)
    rcases origin with now_ | earlier
    · obtain ⟨listed, expired⟩ := deleted key now_
      obtain ⟨-, payload, left⟩ := RunStore.mem_lost.mp listed
      exact ⟨payload, stays expired, left⟩
    · obtain ⟨payload, expired, absent⟩ := counted.removed key earlier
      exact ⟨payload, stays expired, gone expired payload absent⟩
  · rw [registrations]
    exact fresh lostNodup counted.registrations (fun key member =>
      (deleted key (List.mem_append_left _ member)).1)
      fun key member => (counted.removed key (List.mem_append_left _ member)).2.2
  · rw [keys]
    exact fresh paidNodup counted.keys (fun key member => (deleted key (List.mem_append_right _ member)).1)
      fun key member => (counted.removed key (List.mem_append_right _ member)).2.2

theorem transact {op : CellOp} (counted : system.Counted) (other : op.pageRecord = none) :
    (system.transact W runId op).Counted := by
  have step := op.recordStep W runId system.now system.cell
  refine @withCell system _ _ [] [] counted (fun before => step.expired (Nat.le_refl _) before)
    (fun expired => op.run_shrinks expired) (fun reached => .inl (reached.before step other (by decide)))
    (fun reached => .inl (reached.before step other (by decide))) rfl rfl .nil .nil
    (fun key member => by cases member) (fun absent => ?_) fun record status => ?_
  · cases step.status other with
    | kept same => exact counted.uncounted (same.symm.trans absent)
    | scheduled _ status => cases status.symm.trans absent
    | rewritten _ status => cases status.symm.trans absent
  · cases step.status other with
    | kept same => exact counted.counts record (same.symm.trans status)
    | @scheduled first before after retained counts =>
      obtain ⟨registrations, missed, keys⟩ := counted.uncounted before
      obtain rfl := Option.some.inj (after.symm.trans status)
      obtain ⟨-, payloads, paid⟩ : first.deletedStreams = 0 ∧ first.deletedQueuePayloads = 0 ∧
          first.deletedPayloadKeys = 0 := by simpa [CleanupRecord.counts] using counts
      rw [payloads, paid, registrations, missed, keys]
      exact ⟨rfl, rfl⟩
    | @rewritten earlier next before after generation phase counts =>
      obtain rfl := Option.some.inj (after.symm.trans status)
      obtain ⟨payloads, paid⟩ := counted.counts earlier before
      obtain ⟨-, samePayloads, samePaid⟩ : next.deletedStreams = earlier.deletedStreams ∧
          next.deletedQueuePayloads = earlier.deletedQueuePayloads ∧
          next.deletedPayloadKeys = earlier.deletedPayloadKeys := by simpa [CleanupRecord.counts] using counts
      exact ⟨samePayloads.trans payloads, samePaid.trans paid⟩

/-- The registrations of a queue page are deleted by its commit, or already gone. -/
theorem queues_length {record : CleanupRecord} {ids : List String} {more : Bool} {alarm : Nat} {store : RunStore}
    {expected : CleanupRecord} (nodup : ids.Nodup) (same : WorkflowRunDO.sameCleanup store expected = true) :
    ids.length = (store.lost (WorkflowRunDO.pageCommit (.queues ids more) record alarm store)).length +
      (CleanupPass.missed (.queuesListed expected ids more) store).length := by
  have keys : (CleanupPage.queues ids more).keys.Nodup :=
    List.Pairwise.map _ (fun _ _ different equal => different (StoreKey.queuePayload.inj equal)) nodup
  rw [RunStore.lost_length keys (fun key member => ?_) fun key payload => ?_]
  · rw [CleanupPage.keys, List.countP_map, CleanupPass.missed, if_pos same, ← List.countP_eq_length_filter,
      List.length_eq_countP_add_countP (fun id => store.queuePayloads.contains id)]
    congr 1
    exact List.countP_congr fun id _ => by cases store.queuePayloads.contains id <;> decide
  · obtain ⟨id, -, rfl⟩ := List.mem_map.mp member
    rfl
  · rw [← RunStore.has_deleteAll]
    cases key <;> first | rfl | cases payload

theorem lost_retention {store : RunStore} {cleanup : Option CleanupRecord} {tombstone : Option RunTombstone}
    {alarm : Option Nat} : store.lost { store with cleanup, tombstone, alarm } = [] := by
  rw [List.eq_nil_iff_forall_not_mem]
  intro key member
  obtain ⟨stored, payload, gone⟩ := RunStore.mem_lost.mp member
  have kept : store.has key = false := by
    cases key <;> first | exact gone | cases payload
  rw [stored] at kept
  cases kept

/-- The counters of the cleanup record are those of a ledger; without a record it is empty. -/
structure Totals (cell : RunStore) (registrations : List StoreKey) (missed : List String) (keys : List StoreKey) :
    Prop where
  uncounted : WorkflowRunDO.getCleanupStatus cell = none → registrations = [] ∧ missed = [] ∧ keys = []
  counts : ∀ record, WorkflowRunDO.getCleanupStatus cell = some record →
    record.deletedQueuePayloads = registrations.length + missed.length ∧ record.deletedPayloadKeys = keys.length

section Totals
variable {cell after : RunStore} {registrations : List StoreKey} {missed : List String} {keys : List StoreKey}

theorem Totals.of_some {record : CleanupRecord} (status : WorkflowRunDO.getCleanupStatus cell = some record)
    (payloads : record.deletedQueuePayloads = registrations.length + missed.length)
    (paid : record.deletedPayloadKeys = keys.length) : Totals cell registrations missed keys where
  uncounted absent := by cases absent.symm.trans status
  counts other same := Option.some.inj (status.symm.trans same) ▸ ⟨payloads, paid⟩

theorem stored_status {record : CleanupRecord} (stored : cell.cleanup = some record) :
    WorkflowRunDO.getCleanupStatus cell = some record := by
  rw [WorkflowRunDO.getCleanupStatus, stored, Option.some_or]

/-- A payload batch counts the keys that it deletes. -/
theorem Totals.batch (totals : Totals cell registrations missed keys) (batch : BatchStep now cell after) :
    Totals after registrations missed (cell.lost after ++ keys) := by
  cases batch with
  | idle same =>
    rw [same, RunStore.lost_self]
    exact totals
  | @batched record removed stored paying nodup present batch =>
    obtain ⟨payloads, paid⟩ := totals.counts record (stored_status stored)
    have deleted : (cell.lost after).length = removed.length := by
      rw [RunStore.lost_length nodup (fun key member => (present key member).1) fun key payload => ?_,
        List.countP_eq_length.mpr fun key member => (present key member).2]
      rw [batch, ← RunStore.has_deleteAll]
      cases key <;> first | rfl | cases payload
    have counted : record.deletedPayloadKeys + removed.length = (cell.lost after ++ keys).length := by
      rw [List.length_append, deleted, paid, Nat.add_comm]
    refine ⟨fun absent => ?_, fun next same => ?_⟩
    · rw [batch] at absent
      cases absent
    · rw [batch] at same
      exact Option.some.inj same ▸ ⟨payloads, counted⟩
  | @finished record stored paying batch =>
    obtain ⟨payloads, paid⟩ := totals.counts record (stored_status stored)
    rw [batch, lost_retention]
    exact .of_some rfl payloads paid

/-- A queue page counts the registrations that it deletes, and those that were gone. -/
theorem Totals.queues {record expected : CleanupRecord} {ids : List String} {more : Bool} {alarm : Nat}
    (totals : Totals cell registrations missed keys) (stored : cell.cleanup = some record)
    (current : WorkflowRunDO.sameCleanup cell expected = true) (nodup : ids.Nodup) :
    Totals (WorkflowRunDO.pageCommit (.queues ids more) record alarm cell)
      (cell.lost (WorkflowRunDO.pageCommit (.queues ids more) record alarm cell) ++ registrations)
      (CleanupPass.missed (.queuesListed expected ids more) cell ++ missed) keys := by
  obtain ⟨payloads, paid⟩ := totals.counts record (stored_status stored)
  have length := @queues_length record ids more alarm cell expected nodup current
  refine .of_some rfl ?_ paid
  simp only [CleanupPage.update, List.length_append]
  omega

/-- Every other page keeps both counters. -/
theorem Totals.page {record : CleanupRecord} {page : CleanupPage} {alarm : Nat}
    (totals : Totals cell registrations missed keys) (stored : cell.cleanup = some record)
    (other : ∀ ids more, page ≠ .queues ids more) :
    Totals (WorkflowRunDO.pageCommit page record alarm cell) registrations missed keys := by
  obtain ⟨payloads, paid⟩ := totals.counts record (stored_status stored)
  cases page with
  | queues ids more => exact absurd rfl (other ids more)
  | _ => exact .of_some rfl payloads paid

end Totals

/-- Only a pass that has listed queue payloads may miss some of them. -/
theorem missed_other {pass : CleanupPass} {page : CleanupPage} {store : RunStore} (ready : pass.page = some page)
    (other : ∀ ids more, page ≠ .queues ids more) : pass.missed store = [] := by
  cases pass with
  | queuesListed expected ids more => exact absurd (Option.some.inj ready).symm (other ids more)
  | _ => rfl

/-- A page that commits nothing has missed nothing. -/
theorem missed_stale {pass : CleanupPass} {page : CleanupPage} {store : RunStore} (listed : pass.Listed now store)
    (ready : pass.page = some page) (other : pass.record.phase ≠ page.phase ∨ page = .start ∨
      WorkflowRunDO.sameCleanup store pass.record = false) : pass.missed store = [] := by
  cases pass with
  | queuesListed expected ids more =>
    obtain rfl := Option.some.inj ready
    rcases other with different | start | other
    · exact absurd listed.2.1 different
    · cases start
    · exact if_neg (Bool.eq_false_iff.mp other)
  | _ => rfl

/-- The commit of a page counts what it deletes. -/
theorem commitPage_totals {pass : CleanupPass} {page : CleanupPage} (counted : system.Counted)
    (started : pass ∈ system.passes) (ready : pass.page = some page) :
    Totals (system.commitPage W runId pass page).cell (system.commitPage W runId pass page).ledger.registrations
      (system.commitPage W runId pass page).ledger.missed (system.commitPage W runId pass page).ledger.keys := by
  have totals : Totals system.cell system.ledger.registrations system.ledger.missed system.ledger.keys :=
    ⟨counted.uncounted, counted.counts⟩
  have step := @WorkflowRunDO.executeCleanup_step system.now system.cell pass.record page
  simp only [RetentionSystem.commitPage, RetentionSystem.transact, CellOp.run]
  generalize WorkflowRunDO.executeCleanup system.now pass.record page system.cell = cell at step
  cases step with
  | stale same other =>
    obtain ⟨alarm, rfl⟩ := same
    rw [show system.cell.lost { system.cell with alarm } = [] from RunStore.lost_self,
      missed_stale (counted.passes _ started) ready other, ite_self, ite_self]
    exact ⟨totals.uncounted, totals.counts⟩
  | batch payload phase deletes =>
    have unqueued : pass.record.phase ≠ .queues := by
      rw [phase]
      intro same
      cases same
    have missed := @missed_other pass page system.cell ready fun ids more same => by cases payload.symm.trans same
    rw [if_pos phase, if_neg unqueued, missed]
    exact totals.batch deletes
  | @committed record alarm paged phase stored samePhase sameGeneration commit =>
    subst commit
    have unpaid : pass.record.phase ≠ .payload := by
      rw [phase]
      cases page with
      | payload => exact absurd rfl paged
      | _ =>
        intro same
        cases same
    rw [if_neg unpaid, List.nil_append]
    by_cases queues : ∃ ids more, page = .queues ids more
    · obtain ⟨ids, more, rfl⟩ := queues
      obtain ⟨expected, rfl⟩ : ∃ expected, pass = .queuesListed expected ids more := by
        cases pass with
        | queuesListed expected ids' more' =>
          cases ready
          exact ⟨expected, rfl⟩
        | read expected =>
          simp only [CleanupPass.page] at ready
          split at ready <;> cases ready
        | _ => cases ready
      have current : WorkflowRunDO.sameCleanup system.cell expected = true := by
        simpa [WorkflowRunDO.sameCleanup, stored] using ⟨samePhase, sameGeneration⟩
      have queues : (CleanupPass.queuesListed expected ids more).record.phase = .queues := phase
      rw [if_pos queues]
      exact totals.queues stored current (counted.passes _ started).2.2.1
    · have other : ∀ ids more, page ≠ .queues ids more := fun ids more same => queues ⟨ids, more, same⟩
      have unqueued : pass.record.phase ≠ .queues := by
        rw [phase]
        cases page with
        | queues ids more => exact absurd rfl (other ids more)
        | _ =>
          intro same
          cases same
      rw [if_neg unqueued, List.nil_append, missed_other ready other, List.nil_append]
      exact totals.page stored other

/-- A page removes the keys that it lists. -/
theorem pageCommit_has {page : CleanupPage} {record : CleanupRecord} {alarm : Nat} {store : RunStore}
    {key : StoreKey}
    (payload : key.isPayload = true) (listed : store.has key = true → key ∈ page.keys) :
    (WorkflowRunDO.pageCommit page record alarm store).has key = false := by
  have removed : (store.deleteAll page.keys).has key = false := by
    rw [RunStore.has_deleteAll]
    cases stored : store.has key with
    | false => rfl
    | true => simp [listed stored]
  cases key <;> first | exact removed | cases payload

/-- A page deletes what its pass has listed, and ends its phase only if that was all. -/
theorem commitPage {pass : CleanupPass} {page : CleanupPage} (counted : system.Counted)
    (started : pass ∈ system.passes) (ready : pass.page = some page) :
    (system.commitPage W runId pass page).Counted := by
  obtain ⟨uncounted, counts⟩ := @commitPage_totals W runId system pass page counted started ready
  have record := (CellOp.executeCleanup pass.record page).recordStep W runId system.now system.cell
  have step := @WorkflowRunDO.executeCleanup_step system.now system.cell pass.record page
  have removing {phase : CleanupPhase} {keys : List StoreKey} (late : phase ≠ .retained) :
      ∀ key ∈ (if pass.record.phase = phase then keys else []), key ∈ keys ∧
        (system.cell.tombstoneFrom system.now).isSome := by
    intro key member
    split at member
    · rename_i same
      exact ⟨member, (counted.passes pass started).1 (same ▸ late)⟩
    · cases member
  refine counted.withCell (fun before => record.expired (Nat.le_refl _) before)
    (fun _ => step.shrinks) (fun reached => ?_) (fun reached => ?_) rfl rfl ?_ ?_ ?_
    uncounted counts
  · rcases reached.paged step (by decide) with earlier | ⟨last, next, committed, alarm, commit⟩
    · exact .inl earlier
    refine .inr fun key => ?_
    cases page with
    | index markers more =>
      obtain rfl : more = false := by simpa [CleanupPage.isLast] using last
      cases pass with
      | indexListed expected markers' more' =>
        cases ready
        have listed := (counted.passes _ started).2.2 rfl key
        have gone := @pageCommit_has (.index markers false) committed alarm system.cell (.hookMarker key) rfl
          fun stored => List.mem_map_of_mem (listed stored)
        exact (congrArg (RunStore.has · _) commit).trans gone
      | read expected =>
        simp only [CleanupPass.page] at ready
        split at ready <;> cases ready
      | _ => cases ready
    | _ => cases next
  · rcases reached.paged step (by decide) with earlier | ⟨last, next, committed, alarm, commit⟩
    · exact .inl earlier
    refine .inr fun id => ?_
    cases page with
    | queues ids more =>
      obtain rfl : more = false := by simpa [CleanupPage.isLast] using last
      cases pass with
      | queuesListed expected ids' more' =>
        cases ready
        have listed := (counted.passes _ started).2.2.2 rfl id
        have gone := @pageCommit_has (.queues ids false) committed alarm system.cell (.queuePayload id) rfl
          fun stored => List.mem_map_of_mem (listed stored)
        exact (congrArg (RunStore.has · _) commit).trans gone
      | read expected =>
        simp only [CleanupPass.page] at ready
        split at ready <;> cases ready
      | _ => cases ready
    | _ => cases next
  · split
    · exact RunStore.lost_nodup
    · exact .nil
  · split
    · exact RunStore.lost_nodup
    · exact .nil
  · intro key member
    rcases List.mem_append.mp member with registration | paid
    · exact removing (by decide) key registration
    · exact removing (by decide) key paid

/-- A page that left keys unlisted says so. -/
theorem listed_take {κ ν : Type} {cmp : κ → κ → Ordering} [Std.TransCmp cmp] [Std.LawfulEqCmp cmp]
    {map : Std.ExtTreeMap κ ν cmp} {limit : Nat} (last : decide (limit < map.size) = false) {key : κ}
    (stored : map.contains key = true) : key ∈ map.keys.take limit := by
  have fits : map.keys.length ≤ limit := by simpa using last
  rw [List.take_of_length_le fits]
  exact Std.ExtTreeMap.mem_keys.mpr (Std.ExtTreeMap.mem_iff_contains.mpr stored)

theorem step (counted : system.Counted) (step : RetentionStep W runId system after) : after.Counted := by
  have awaits {later : CleanupPass} (listed : later.Listed system.now system.cell) :
      ∀ pass ∈ later :: system.passes, pass ∈ system.passes ∨ pass.Listed system.now system.cell := by
    intro pass member
    rcases List.mem_cons.mp member with rfl | earlier
    · exact .inr listed
    · exact .inl earlier
  cases step with
  | tick forward => exact counted.frame forward rfl rfl rfl rfl fun _ => .inl
  | transaction other => exact counted.transact other
  | @read record stored =>
    refine counted.frame (Nat.le_refl _) rfl rfl rfl rfl (awaits ⟨fun left => ?_, trivial⟩)
    rw [RunStore.tombstoneFrom_isSome_iff]
    exact .inr ⟨record, stored, fun retained => absurd retained left⟩
  | listIndex started phase =>
    have expired := (counted.passes _ started).1
    exact counted.frame (Nat.le_refl _) rfl rfl rfl rfl
      (awaits ⟨expired, phase, fun last key stored => listed_take last stored⟩)
  | listQueues started phase =>
    have expired := (counted.passes _ started).1
    have nodup := Std.ExtTreeMap.nodup_keys.sublist (List.take_sublist QUEUE_PAYLOADS_PER_CLEANUP_PAGE
      system.cell.queuePayloads.keys)
    exact counted.frame (Nat.le_refl _) rfl rfl rfl rfl
      (awaits ⟨expired, phase, nodup, fun last id stored => listed_take last stored⟩)
  | fenceRegistry started phase call =>
    exact counted.frame (Nat.le_refl _) rfl rfl rfl rfl (awaits ⟨(counted.passes _ started).1, trivial⟩)
  | expireStream listed budget call =>
    exact counted.frame (Nat.le_refl _) rfl rfl rfl rfl (awaits ⟨(counted.passes _ listed).1, trivial⟩)
  | finalizeRegistry listed ended call =>
    exact counted.frame (Nat.le_refl _) rfl rfl rfl rfl (awaits ⟨(counted.passes _ listed).1, trivial⟩)
  | commit started ready => exact counted.commitPage started ready
  | register call => exact counted.frame (Nat.le_refl _) rfl rfl rfl rfl fun _ => .inl
  | write client registered call => exact counted.frame (Nat.le_refl _) rfl rfl rfl rfl fun _ => .inl
  | foreign different call => exact counted.frame (Nat.le_refl _) rfl rfl rfl rfl fun _ => .inl

end RetentionSystem.Counted

theorem RetentionRun.counted {start : Nat} (reach : RetentionRun W runId { now := start } system) :
    system.Counted := by
  induction reach with
  | start => exact .start
  | next _ step ih => exact ih.step step

end CelldWorld
