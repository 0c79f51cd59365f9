import CelldWorld.ExpiredKeys
import CelldWorld.ExpiryReports
import CelldWorld.StreamPages

namespace CelldWorld

def STREAMS_PER_CLEANUP_PAGE : Nat := 16
def STREAM_CHUNKS_PER_CLEANUP_PAGE : Nat := 256
def STREAM_BYTES_PER_CLEANUP_PAGE : Nat := 16 * 1024 * 1024
def QUEUE_PAYLOADS_PER_CLEANUP_PAGE : Nat := 128

/-- A pass over the cleanup record of a run, between two of its awaits. -/
inductive CleanupPass
  | read (record : CleanupRecord)
  | indexListed (record : CleanupRecord) (markers : List (String × String)) (more : Bool)
  | streamsListed (record : CleanupRecord) (streams completed : List String)
      (remainingChunks remainingBytes : Nat)
  | streamsFinalized (record : CleanupRecord) (deleted : Nat) (done : Bool)
  | queuesListed (record : CleanupRecord) (page : List String) (more : Bool)
  deriving DecidableEq, Repr

namespace CleanupPass

/-- The record that the pass read first. -/
def record : CleanupPass → CleanupRecord
  | read record | indexListed record _ _ | streamsListed record _ _ _ _ | streamsFinalized record _ _
  | queuesListed record _ _ => record

/-- The page that the pass commits next, if its calls to other cells are over. -/
def page : CleanupPass → Option CleanupPage
  | read record =>
    match record.phase with
    | .retained => some .start
    | .payload => some .payload
    | _ => none
  | indexListed _ markers more => some (.index markers more)
  | streamsListed .. => none
  | streamsFinalized _ deleted done => some (.streams deleted done)
  | queuesListed _ page more => some (.queues page more)

/-- The registrations of a queue page that are gone when it commits. -/
def missed (pass : CleanupPass) (store : RunStore) : List String :=
  match pass with
  | queuesListed record page _ =>
    if WorkflowRunDO.sameCleanup store record then page.filter fun id => !store.queuePayloads.contains id else []
  | _ => []

end CleanupPass

namespace RunStore

/-- The generation of the cleanup record that a transaction overwrote, if it wrote it. -/
def overwritten (before after : RunStore) : Option Nat :=
  if WorkflowRunDO.getCleanupStatus after = WorkflowRunDO.getCleanupStatus before then none
  else (WorkflowRunDO.getCleanupStatus before).map CleanupRecord.generation

/-- The keys that a transaction deleted, other than the cleanup record and the tombstone. -/
def lost (before after : RunStore) : List StoreKey :=
  before.keys.filter fun key => key.isPayload && !after.has key

end RunStore

/-- What the cleanup passes have really removed, and which generations were overwritten. -/
structure CleanupLedger where
  overwritten : List Nat := []
  streams : List String := []
  registrations : List StoreKey := []
  /-- Registrations that a committed queue page had listed but did not find any more. -/
  missed : List String := []
  keys : List StoreKey := []

/-- A run cell with its stream registry and all stream cells. -/
structure RetentionSystem where
  now : Nat
  cell : RunStore := {}
  registry : StreamRegistry := {}
  streams : String → StreamStore := fun _ => {}
  /-- The streams that clients of the run have registered, which they may cache. -/
  registered : List String := []
  /-- The streams that clients of the run have written, closed or failed. -/
  written : List String := []
  passes : List CleanupPass := []
  ledger : CleanupLedger := {}

namespace RetentionSystem
variable (W : WorldContract) (runId : String) (system : RetentionSystem)

def putStream (name : String) (store : StreamStore) : RetentionSystem :=
  { system with streams := fun other => if other = name then store else system.streams other }

/-- A pass reaches its next await. -/
def awaiting (pass : CleanupPass) : RetentionSystem :=
  { system with passes := pass :: system.passes }

/-- A transaction of the run cell. -/
def transact (op : CellOp) : RetentionSystem :=
  let after := op.run W runId system.now system.cell
  { system with
    cell := after
    ledger := { system.ledger with
      overwritten := (system.cell.overwritten after).toList ++ system.ledger.overwritten } }

/-- The transaction in which a pass commits its page. -/
def commitPage (pass : CleanupPass) (page : CleanupPage) : RetentionSystem :=
  let after := system.transact W runId (.executeCleanup pass.record page)
  let lost := system.cell.lost after.cell
  { after with ledger := { after.ledger with
      registrations := (if pass.record.phase = .queues then lost else []) ++ after.ledger.registrations
      missed := pass.missed system.cell ++ after.ledger.missed
      keys := (if pass.record.phase = .payload then lost else []) ++ after.ledger.keys } }

end RetentionSystem

/-- The calls of a client, which never expires a stream. -/
def StreamOp.isClient : StreamOp → Bool
  | .expire .. => false
  | _ => true

/-- One step of the run cell, its registry, a stream cell, or a pass between two of its
awaits. A pass may stop, or be repeated, at any of them. -/
inductive RetentionStep (W : WorldContract) (runId : String) (system : RetentionSystem) : RetentionSystem → Prop
  | tick {later : Nat} (forward : system.now ≤ later) : RetentionStep W runId system { system with now := later }
  | transaction {op : CellOp} (other : op.pageRecord = none) :
      RetentionStep W runId system (system.transact W runId op)
  | read {record : CleanupRecord} (stored : system.cell.cleanup = some record) :
      RetentionStep W runId system (system.awaiting (.read record))
  | listIndex {record : CleanupRecord} (started : .read record ∈ system.passes) (phase : record.phase = .index) :
      RetentionStep W runId system (system.awaiting (.indexListed record
        (system.cell.hookMarkers.keys.take HOOK_MARKER_PAGE_SIZE)
        (HOOK_MARKER_PAGE_SIZE < system.cell.hookMarkers.size)))
  | fenceRegistry {record : CleanupRecord} {names : List String} {registry : StreamRegistry}
      (started : .read record ∈ system.passes) (phase : record.phase = .streams)
      (call : StreamDO.expireRegistry runId record.dueAt (some STREAMS_PER_CLEANUP_PAGE) system.registry =
        .ok (names, registry)) :
      RetentionStep W runId system ({ system with registry }.awaiting (.streamsListed record names []
        STREAM_CHUNKS_PER_CLEANUP_PAGE STREAM_BYTES_PER_CLEANUP_PAGE))
  | expireStream {record : CleanupRecord} {name : String} {rest completed : List String} {chunks bytes : Nat}
      {result : ExpireStreamResult} {store : StreamStore}
      (listed : .streamsListed record (name :: rest) completed chunks bytes ∈ system.passes)
      (budget : 0 < chunks ∧ 0 < bytes)
      (call : StreamDO.expireStream runId record.dueAt (some chunks) (some bytes) (system.streams name) =
        .ok (result, store)) :
      RetentionStep W runId system ((system.putStream name store).awaiting (.streamsListed record rest
        (if result.done then completed ++ [name] else completed) (chunks - result.chunks) (bytes - result.bytes)))
  | finalizeRegistry {record : CleanupRecord} {rest completed : List String} {chunks bytes : Nat}
      {result : FinalizeRunStreamsResult} {registry : StreamRegistry}
      (listed : .streamsListed record rest completed chunks bytes ∈ system.passes)
      (ended : rest = [] ∨ chunks = 0 ∨ bytes = 0)
      (call : StreamDO.finalizeRegistry runId completed system.registry = .ok (result, registry)) :
      RetentionStep W runId system ({ system with
        registry
        ledger := { system.ledger with
          streams := (system.registry.streams.keys.filter fun name => !registry.streams.contains name) ++
            system.ledger.streams } }.awaiting (.streamsFinalized record result.deleted result.done))
  | listQueues {record : CleanupRecord} (started : .read record ∈ system.passes)
      (phase : record.phase = .queues) :
      RetentionStep W runId system (system.awaiting (.queuesListed record
        (system.cell.queuePayloads.keys.take QUEUE_PAYLOADS_PER_CLEANUP_PAGE)
        (QUEUE_PAYLOADS_PER_CLEANUP_PAGE < system.cell.queuePayloads.size)))
  | commit {pass : CleanupPass} {page : CleanupPage} (started : pass ∈ system.passes)
      (ready : pass.page = some page) :
      RetentionStep W runId system (system.commitPage W runId pass page)
  | register {name : String} {registry : StreamRegistry}
      (call : StreamDO.registerStream runId name system.registry = .ok registry) :
      RetentionStep W runId system { system with registry, registered := name :: system.registered }
  | write {name : String} {op : StreamOp} {store : StreamStore} (client : op.isClient)
      (registered : name ∈ system.registered) (call : op.run runId (system.streams name) = .ok store) :
      RetentionStep W runId system { system.putStream name store with written := name :: system.written }
  | foreign {other name : String} {op : StreamOp} {store : StreamStore} (different : other ≠ runId)
      (call : op.run other (system.streams name) = .ok store) :
      RetentionStep W runId system (system.putStream name store)

/-- The states that a system runs into. -/
inductive RetentionRun (W : WorldContract) (runId : String) (first : RetentionSystem) : RetentionSystem → Prop
  | start : RetentionRun W runId first first
  | next {before after : RetentionSystem} (reach : RetentionRun W runId first before)
      (step : RetentionStep W runId before after) : RetentionRun W runId first after

variable {W : WorldContract} {runId : String} {start : Nat} {system after : RetentionSystem}

/-- Every run of the system is a run of its cell, in which each pass has read its record. -/
theorem RetentionRun.cellPasses (reach : RetentionRun W runId { now := start } system) :
    ∃ earlier reads, earlier ≤ system.now ∧ CellPasses W runId ⟨start, {}, []⟩ ⟨earlier, system.cell, reads⟩ ∧
      ∀ pass ∈ system.passes, pass.record ∈ reads := by
  induction reach with
  | start => exact ⟨start, [], Nat.le_refl _, .start, fun pass member => by cases member⟩
  | @next before after _ step ih =>
    obtain ⟨earlier, reads, forward, cell, follows⟩ := ih
    have transacts (op : CellOp) (page : ∀ expected, op.pageRecord = some expected → expected ∈ reads) :
        CellPasses W runId ⟨start, {}, []⟩ ⟨before.now, op.run W runId before.now before.cell, reads⟩ :=
      .next op cell forward page
    have awaits {pass later : CleanupPass} (known : pass ∈ before.passes) (same : later.record = pass.record) :
        ∀ other ∈ later :: before.passes, other.record ∈ reads := by
      intro other member
      rcases List.mem_cons.mp member with rfl | earlier
      · exact same ▸ follows pass known
      · exact follows other earlier
    cases step with
    | tick later => exact ⟨earlier, reads, Nat.le_trans forward later, cell, follows⟩
    | @transaction op other =>
      exact ⟨before.now, reads, Nat.le_refl _,
        transacts op (fun _ page => by cases other.symm.trans page), follows⟩
    | @read record stored =>
      refine ⟨earlier, record :: reads, forward, .read cell stored, fun pass member => ?_⟩
      rcases List.mem_cons.mp member with rfl | known
      · exact .head _
      · exact .tail _ (follows pass known)
    | listIndex started => exact ⟨earlier, reads, forward, cell, awaits started rfl⟩
    | fenceRegistry started => exact ⟨earlier, reads, forward, cell, awaits started rfl⟩
    | expireStream listed => exact ⟨earlier, reads, forward, cell, awaits listed rfl⟩
    | finalizeRegistry listed => exact ⟨earlier, reads, forward, cell, awaits listed rfl⟩
    | listQueues started => exact ⟨earlier, reads, forward, cell, awaits started rfl⟩
    | @commit pass page started =>
      refine ⟨before.now, reads, Nat.le_refl _, transacts (.executeCleanup pass.record page) ?_, follows⟩
      intro expected same
      obtain rfl := Option.some.inj same
      exact follows pass started
    | register => exact ⟨earlier, reads, forward, cell, follows⟩
    | write => exact ⟨earlier, reads, forward, cell, follows⟩
    | foreign => exact ⟨earlier, reads, forward, cell, follows⟩

end CelldWorld
