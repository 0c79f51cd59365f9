import CelldWorld.RetentionPasses
import CelldWorld.Spec.Pages

namespace CelldWorld

/-- The registry takes no stream any more and has none left. -/
def StreamRegistry.Drained (registry : StreamRegistry) : Prop :=
  registry.expired.isSome ∧ registry.streams = ∅

/-- The cleanup record has reached a phase. -/
def RunStore.Reached (phase : CleanupPhase) (store : RunStore) : Prop :=
  ∃ record, WorkflowRunDO.getCleanupStatus store = some record ∧ phase.rank ≤ record.phase.rank

/-- What joins the registry, the stream cells and the passes over them. -/
structure RetentionSystem.StreamsSound (system : RetentionSystem) : Prop where
  laid : ∀ name, (system.streams name).Laid
  registered : ∀ name ∈ system.registered,
    system.registry.streams.contains name = true ∨ (system.streams name).Gone
  written : ∀ name ∈ system.written, name ∈ system.registered
  completed : ∀ record rest completed chunks bytes,
    CleanupPass.streamsListed record rest completed chunks bytes ∈ system.passes →
      system.registry.expired.isSome ∧ ∀ name ∈ completed, (system.streams name).Gone
  finalized : ∀ record deleted, CleanupPass.streamsFinalized record deleted true ∈ system.passes →
    system.registry.Drained
  drained : system.cell.Reached .queues → system.registry.Drained

variable {W : WorldContract} {runId : String} {now : Nat} {system after : RetentionSystem}

/-- A transaction that commits no page moves the record to no further phase. -/
theorem RunStore.Reached.before {phase : CleanupPhase} {op : CellOp} {before after : RunStore}
    (step : RecordStep now op before after) (other : op.pageRecord = none) (late : 0 < phase.rank)
    (reached : after.Reached phase) : before.Reached phase := by
  obtain ⟨record, status, rank⟩ := reached
  cases step.status other with
  | kept same => exact ⟨record, same ▸ status, rank⟩
  | scheduled absent same retained counts =>
    obtain rfl := Option.some.inj (same.symm.trans status)
    rw [retained] at rank
    exact absurd rank (Nat.not_le_of_lt late)
  | @rewritten earlier next stored same generation samePhase counts =>
    obtain rfl := Option.some.inj (same.symm.trans status)
    exact ⟨earlier, stored, samePhase ▸ rank⟩

/-- The page that moves the record into a phase is the last one of an earlier phase. -/
theorem RunStore.Reached.paged {phase : CleanupPhase} {expected : CleanupRecord} {page : CleanupPage}
    {before after : RunStore} (step : PageStep now expected page before after) (early : phase.rank ≤ 4)
    (reached : after.Reached phase) :
    before.Reached phase ∨ page.isLast = true ∧ phase = page.phase.next ∧
      ∃ record alarm, after = WorkflowRunDO.pageCommit page record alarm before := by
  cases step with
  | stale same =>
    obtain ⟨alarm, rfl⟩ := same
    exact .inl reached
  | batch payload paying deletes =>
    left
    have paid {record : CleanupRecord} (stored : before.cleanup = some record)
      (paying : record.phase = .payload) :
        before.Reached phase := by
      refine ⟨record, ?_, ?_⟩
      · rw [WorkflowRunDO.getCleanupStatus, stored, Option.some_or]
      · rw [paying]
        exact early
    cases deletes with
    | idle same => exact same ▸ reached
    | batched stored paying => exact paid stored paying
    | finished stored paying => exact paid stored paying
  | @committed record alarm paged expects stored samePhase sameGeneration commit =>
    obtain ⟨next, status, rank⟩ := reached
    rw [commit] at status
    obtain rfl := Option.some.inj status
    by_cases earlier : phase.rank ≤ page.phase.rank
    · refine .inl ⟨record, ?_, ?_⟩
      · rw [WorkflowRunDO.getCleanupStatus, stored, Option.some_or]
      · rw [samePhase, expects]
        exact earlier
    · obtain ⟨last, next⟩ := CleanupPage.moves paged (Nat.lt_of_not_le earlier) rank
      exact .inr ⟨last, next, record, alarm, commit⟩

namespace RetentionSystem.StreamsSound

theorem start {start : Nat} : StreamsSound { now := start } where
  laid _ := .start
  registered _ member := by cases member
  written _ member := by cases member
  completed _ _ _ _ _ member := by cases member
  finalized _ _ member := by cases member
  drained reached := by
    obtain ⟨record, status, -⟩ := reached
    cases status

/-- A pass reaches an await without a call to the registry or a stream. -/
theorem awaiting {pass : CleanupPass} (sound : system.StreamsSound)
    (unlisted : ∀ record rest completed chunks bytes, pass ≠ .streamsListed record rest completed chunks bytes)
    (unfinished : ∀ record deleted done, pass ≠ .streamsFinalized record deleted done) :
    (system.awaiting pass).StreamsSound where
  laid := sound.laid
  registered := sound.registered
  written := sound.written
  completed record rest completed chunks bytes member := by
    rcases List.mem_cons.mp member with same | earlier
    · exact absurd same.symm (unlisted record rest completed chunks bytes)
    · exact sound.completed record rest completed chunks bytes earlier
  finalized record deleted member := by
    rcases List.mem_cons.mp member with same | earlier
    · exact absurd same.symm (unfinished record deleted true)
    · exact sound.finalized record deleted earlier
  drained := sound.drained

/-- A transaction that does not bring the record past the streams. -/
theorem withCell {cell : RunStore} {ledger : CleanupLedger} (sound : system.StreamsSound)
    (drained : cell.Reached .queues → system.registry.Drained) : StreamsSound { system with cell, ledger } where
  laid := sound.laid
  registered := sound.registered
  written := sound.written
  completed := sound.completed
  finalized := sound.finalized
  drained := drained

theorem transact {op : CellOp} (sound : system.StreamsSound) (other : op.pageRecord = none) :
    (system.transact W runId op).StreamsSound :=
  sound.withCell fun reached =>
    sound.drained (reached.before (op.recordStep W runId system.now system.cell) other (by decide))

/-- The record leaves the streams behind with the page of a pass that found none left. -/
theorem commitPage {pass : CleanupPass} {page : CleanupPage} (sound : system.StreamsSound)
    (started : pass ∈ system.passes) (ready : pass.page = some page) :
    (system.commitPage W runId pass page).StreamsSound := by
  refine sound.withCell fun reached => ?_
  have step := @WorkflowRunDO.executeCleanup_step system.now system.cell pass.record page
  rcases reached.paged step (by decide) with earlier | ⟨last, next, -⟩
  · exact sound.drained earlier
  cases page with
  | streams deleted done =>
    obtain rfl : done = true := last
    cases pass with
    | streamsFinalized record deleted' done' =>
      cases ready
      exact sound.finalized record deleted started
    | read record =>
      simp only [CleanupPass.page] at ready
      split at ready <;> cases ready
    | _ => cases ready
  | _ => cases next

theorem fenceRegistry {record : CleanupRecord} {names : List String} {registry : StreamRegistry}
    {chunks bytes : Nat}
    {limit : Option Nat} (sound : system.StreamsSound)
    (call : StreamDO.expireRegistry runId record.dueAt limit system.registry = .ok (names, registry)) :
    ({ system with registry }.awaiting (.streamsListed record names [] chunks bytes)).StreamsSound := by
  obtain ⟨streams, fence, fenced, -⟩ := StreamDO.expireRegistry_ok call
  have expired : registry.expired.isSome := by
    rw [fenced]
    rfl
  refine ⟨sound.laid, fun name member => ?_, sound.written, fun other rest completed chunks' bytes' member => ?_,
    fun other deleted member => ?_, fun reached => ⟨expired, streams.trans (sound.drained reached).2⟩⟩
  · simp only [RetentionSystem.awaiting, streams]
    exact sound.registered name member
  · rcases List.mem_cons.mp member with same | earlier
    · cases same
      exact ⟨expired, fun name member => by cases member⟩
    · exact ⟨expired, (sound.completed other rest completed chunks' bytes' earlier).2⟩
  · rcases List.mem_cons.mp member with same | earlier
    · cases same
    · exact ⟨expired, streams.trans (sound.finalized other deleted earlier).2⟩

/-- A call of any run to a stream cell. -/
theorem putStream {caller name : String} {op : StreamOp} {store : StreamStore} (sound : system.StreamsSound)
    (call : op.run caller (system.streams name) = .ok store) : (system.putStream name store).StreamsSound := by
  have gone (other : String) (gone : (system.streams other).Gone) :
      ((system.putStream name store).streams other).Gone := by
    unfold RetentionSystem.putStream
    simp only
    split
    · rename_i same
      exact (same ▸ gone).run call
    · exact gone
  refine ⟨fun other => ?_, fun other member => ?_, sound.written,
    fun record rest completed chunks bytes member => ?_,
    sound.finalized, sound.drained⟩
  · unfold RetentionSystem.putStream
    simp only
    split
    · exact (sound.laid name).run call
    · exact sound.laid other
  · rcases sound.registered other member with listed | left
    · exact .inl listed
    · exact .inr (gone other left)
  · obtain ⟨expired, left⟩ := sound.completed record rest completed chunks bytes member
    exact ⟨expired, fun other member => gone other (left other member)⟩

/-- A pass counts a stream as completed once its expiry found no rows left. -/
theorem expireStream {record : CleanupRecord} {name : String} {rest completed : List String} {chunks bytes : Nat}
    {limit byteLimit : Option Nat} {chunks' bytes' : Nat} {result : ExpireStreamResult} {store : StreamStore}
    (sound : system.StreamsSound)
    (listed : .streamsListed record (name :: rest) completed chunks bytes ∈ system.passes)
    (call : StreamDO.expireStream runId record.dueAt limit byteLimit (system.streams name) =
      .ok (result, store)) :
    ((system.putStream name store).awaiting (.streamsListed record rest
      (if result.done then completed ++ [name] else completed) chunks' bytes')).StreamsSound := by
  have op : (StreamOp.expire record.dueAt limit byteLimit).run runId (system.streams name) = .ok store :=
    map_ok.mpr ⟨_, call, rfl⟩
  have updated := sound.putStream op
  obtain ⟨expired, left⟩ := updated.completed record _ completed chunks bytes listed
  refine ⟨updated.laid, updated.registered, updated.written,
    fun other rest' completed' chunks' bytes' member => ?_, fun other deleted member => ?_, updated.drained⟩
  · rcases List.mem_cons.mp member with same | earlier
    · cases same
      refine ⟨expired, fun other member => ?_⟩
      split at member
      · rename_i done
        rcases List.mem_append.mp member with before | last
        · exact left other before
        · obtain rfl := List.mem_singleton.mp last
          have gone := ((sound.laid other).expireStream call).2 done
          simpa [RetentionSystem.awaiting, RetentionSystem.putStream] using gone
      · exact left other member
    · exact updated.completed other rest' completed' chunks' bytes' earlier
  · rcases List.mem_cons.mp member with same | earlier
    · cases same
    · exact updated.finalized other deleted earlier

theorem finalizeRegistry {record : CleanupRecord} {rest completed : List String} {chunks bytes : Nat}
    {result : FinalizeRunStreamsResult} {registry : StreamRegistry} {ledger : CleanupLedger}
    (sound : system.StreamsSound) (listed : .streamsListed record rest completed chunks bytes ∈ system.passes)
    (call : StreamDO.finalizeRegistry runId completed system.registry = .ok (result, registry)) :
    ({ system with registry, ledger }.awaiting
      (.streamsFinalized record result.deleted result.done)).StreamsSound := by
  obtain ⟨fence, fenced, kept, -, done, streams⟩ := StreamDO.finalizeRegistry_ok call
  have expired : registry.expired.isSome := by
    rw [kept]
    rfl
  have drained (already : system.registry.Drained) : registry.Drained := by
    refine ⟨expired, ?_⟩
    rw [Std.ExtTreeMap.eq_empty_iff_forall_contains]
    intro name
    rw [streams, already.2, Std.ExtTreeMap.contains_empty, Bool.false_and]
  have left := (sound.completed record rest completed chunks bytes listed).2
  refine ⟨sound.laid, fun name member => ?_, sound.written,
    fun other rest' completed' chunks' bytes' member => ?_,
    fun other deleted member => ?_, fun reached => drained (sound.drained reached)⟩
  · rcases sound.registered name member with before | gone
    · by_cases finished : name ∈ completed
      · exact .inr (left name finished)
      · exact .inl ((streams name).trans (by simp [before, finished]))
    · exact .inr gone
  · rcases List.mem_cons.mp member with same | earlier
    · cases same
    · exact ⟨expired, (sound.completed other rest' completed' chunks' bytes' earlier).2⟩
  · rcases List.mem_cons.mp member with same | earlier
    · obtain ⟨-, -, finished⟩ := CleanupPass.streamsFinalized.inj same
      rw [done] at finished
      exact ⟨expired, Std.ExtTreeMap.isEmpty_iff.mp finished.symm⟩
    · exact drained (sound.finalized other deleted earlier)

/-- A registry that registers is not fenced yet, so no pass has fenced it. -/
theorem register {name : String} {registry : StreamRegistry} (sound : system.StreamsSound)
    (call : StreamDO.registerStream runId name system.registry = .ok registry) :
    StreamsSound { system with registry, registered := name :: system.registered } := by
  obtain ⟨unfenced, -, streams⟩ := StreamDO.registerStream_ok call
  have open_ : system.registry.expired.isSome = false := by
    rw [unfenced]
    rfl
  refine ⟨sound.laid, fun other member => ?_, fun other member => .tail _ (sound.written other member),
    fun record rest completed chunks bytes member => ?_, fun record deleted member => ?_, fun reached => ?_⟩
  · simp only [streams, Std.ExtTreeMap.contains_insert, Bool.or_eq_true]
    rcases List.mem_cons.mp member with rfl | earlier
    · exact .inl (.inl (by simp))
    · rcases sound.registered other earlier with listed | gone
      · exact .inl (.inr listed)
      · exact .inr gone
  · have fenced := (sound.completed record rest completed chunks bytes member).1
    rw [open_] at fenced
    cases fenced
  · have fenced := (sound.finalized record deleted member).1
    rw [open_] at fenced
    cases fenced
  · have fenced := (sound.drained reached).1
    rw [open_] at fenced
    cases fenced

theorem step (sound : system.StreamsSound) (step : RetentionStep W runId system after) : after.StreamsSound := by
  cases step with
  | tick forward =>
    exact ⟨sound.laid, sound.registered, sound.written, sound.completed, sound.finalized, sound.drained⟩
  | transaction other => exact sound.transact other
  | read stored => exact sound.awaiting (fun _ _ _ _ _ same => by cases same) fun _ _ _ same => by cases same
  | listIndex started phase =>
    exact sound.awaiting (fun _ _ _ _ _ same => by cases same) fun _ _ _ same => by cases same
  | listQueues started phase =>
    exact sound.awaiting (fun _ _ _ _ _ same => by cases same) fun _ _ _ same => by cases same
  | fenceRegistry started phase call => exact sound.fenceRegistry call
  | expireStream listed budget call => exact sound.expireStream listed call
  | finalizeRegistry listed ended call => exact sound.finalizeRegistry listed call
  | commit started ready => exact sound.commitPage started ready
  | register call => exact sound.register call
  | @write name op store client registered call =>
    have updated := sound.putStream call
    refine ⟨updated.laid, updated.registered, fun other member => ?_, updated.completed, updated.finalized,
      updated.drained⟩
    rcases List.mem_cons.mp member with rfl | earlier
    · exact registered
    · exact sound.written other earlier
  | foreign different call => exact sound.putStream call

end RetentionSystem.StreamsSound

theorem RetentionRun.streamsSound (reach : RetentionRun W runId system after) (sound : system.StreamsSound) :
    after.StreamsSound := by
  induction reach with
  | start => exact sound
  | next _ step ih => exact ih.step step

/-- A drained registry stays drained. -/
theorem RetentionStep.drained (step : RetentionStep W runId system after) (drained : system.registry.Drained) :
    after.registry.Drained := by
  cases step with
  | fenceRegistry started phase call =>
    obtain ⟨streams, fence, fenced, -⟩ := StreamDO.expireRegistry_ok call
    exact ⟨Option.isSome_iff_exists.mpr ⟨fence, fenced⟩, streams.trans drained.2⟩
  | finalizeRegistry listed ended call =>
    obtain ⟨fence, -, kept, -, -, streams⟩ := StreamDO.finalizeRegistry_ok call
    refine ⟨Option.isSome_iff_exists.mpr ⟨_, kept⟩,
      Std.ExtTreeMap.eq_empty_iff_forall_contains.mpr fun name => ?_⟩
    rw [RetentionSystem.awaiting, streams, drained.2, Std.ExtTreeMap.contains_empty, Bool.false_and]
  | register call =>
    have fenced := drained.1
    rw [(StreamDO.registerStream_ok call).1] at fenced
    cases fenced
  | _ => exact drained

theorem RetentionRun.drained (reach : RetentionRun W runId system after) (drained : system.registry.Drained) :
    after.registry.Drained := by
  induction reach with
  | start => exact drained
  | next _ step ih => exact step.drained ih

/-- Once the cleanup record has left the streams, no stream of the run has a row left, and
none takes a chunk again. -/
theorem streamExpiry_complete {W : WorldContract} {runId : String} {start : Nat} {system later : RetentionSystem}
    (reach : RetentionRun W runId { now := start } system) (left : system.cell.Reached .queues)
    (continues : RetentionRun W runId system later) (name : String) (written : name ∈ later.written) :
    (later.streams name).Gone ∧ ∀ caller newLayout chunks, ∃ thrown,
      StreamDO.writeChunks newLayout caller chunks (later.streams name) = .error thrown := by
  have sound := reach.streamsSound .start
  have soundLater := continues.streamsSound sound
  have drained := continues.drained (sound.drained left)
  have gone : (later.streams name).Gone := by
    rcases soundLater.registered name (soundLater.written name written) with listed | gone
    · rw [drained.2, Std.ExtTreeMap.contains_empty] at listed
      cases listed
    · exact gone
  exact ⟨gone, fun caller newLayout chunks => gone.writeChunks⟩

theorem streamExpiry_complete_written : ∃ system : RetentionSystem,
    "stream" ∈ system.written ∧ (system.streams "stream").Gone := by
  have started := (@RetentionRun.start .unary "run" { now := 1 }).next (@RetentionStep.transaction _ _ _
    (.resilientStart "run" "deployment" "workflow" (.string "input")) rfl)
  have registered := started.next (@RetentionStep.register _ _ _ "stream" _ rfl)
  have written := registered.next
    (@RetentionStep.write _ _ _ "stream" (.write NEW_STREAM_LAYOUT [[1], [2, 3]]) _ rfl (.head _) rfl)
  have completed := (written.next (.tick (show 1 ≤ 2 by decide))).next
    (@RetentionStep.transaction _ _ _ (.completeRetained "run") rfl)
  have due := (completed.next (.tick (show 2 ≤ 9 by decide))).next (.read rfl)
  have index := ((due.next (.commit (.head _) rfl)).next (.read rfl)).next (.listIndex (.head _) rfl)
  have streams := ((index.next (.commit (.head _) rfl)).next (.read rfl)).next (.fenceRegistry (.head _) rfl rfl)
  have expired := streams.next
    (@RetentionStep.expireStream _ _ _ _ "stream" [] _ _ _ _ _ (.head _) (by decide) rfl)
  have left := (expired.next (.finalizeRegistry (.head _) (.inl rfl) rfl)).next (.commit (.head _) rfl)
  exact ⟨_, .head _, (streamExpiry_complete left ⟨_, rfl, by decide⟩ .start "stream" (.head _)).1⟩

end CelldWorld
