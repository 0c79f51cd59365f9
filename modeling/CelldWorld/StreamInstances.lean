import CelldWorld.StreamReaders

namespace CelldWorld

open StreamDO

namespace StreamDO

/-- The stored metadata as it is, or that of a stream without any. -/
def storedMeta (store : StreamStore) : StreamMeta := store.metadata.getD emptyMeta

/-- The metadata that the transaction of a mutation returns: the one it puts, or the one
it has read where it puts none. -/
def nextMeta (runId : String) (op : StreamOp) (store : StreamStore) : Except Thrown StreamMeta := do
  let metadata ← loadMeta store
  match op with
  | .write newLayout chunks =>
    let layout := if store.metadata = none then newLayout else metadata.layout
    .ok { count := metadata.count + chunks.length, state := .opened, ownerRunId := some runId, layout }
  | .close =>
    if metadata.state ≠ .opened then .ok metadata
    else .ok { metadata with ownerRunId := some runId, state := .closed }
  | .fail normalized =>
    if metadata.state ≠ .opened then .ok metadata
    else .ok { metadata with ownerRunId := some runId, state := .errored, error := some normalized }
  | .expire expiredAt limit byteLimit =>
    let limit := boundedLimit limit DEFAULT_EXPIRE_CHUNK_LIMIT MAX_EXPIRE_CHUNK_LIMIT
    let byteLimit := boundedLimit byteLimit DEFAULT_EXPIRE_BYTE_LIMIT MAX_EXPIRE_BYTE_LIMIT
    let ((chunks, _, done), _) ← expirePage metadata.layout limit byteLimit store
    if done ∧ chunks = 0 ∧ metadata.state = .expired ∧ metadata.payloadDeleted then .ok metadata
    else .ok { metadata with
      count := if done then 0 else metadata.count
      ownerRunId := some runId
      state := .expired
      error := none
      expiredAt := some (metadata.expiredAt.getD expiredAt)
      expiredChunkCount := some (metadata.expiredChunkCount.getD metadata.count)
      payloadDeleted := done }

end StreamDO

/-- Why a wait for a change has ended. -/
inductive WaitReason
  | change | timeout
  deriving DecidableEq, Repr

/-- Where a `readChunks` call is. At its second snapshot, `again` is why its wait has ended. -/
inductive PollState
  /-- It awaits a `metaLoad`. -/
  | loading (load : Nat) (again : Option WaitReason)
  | loaded (metadata : StreamMeta) (again : Option WaitReason)
  | rows (metadata : StreamMeta) (read : RowRead) (again : Option WaitReason)
  | snapshot (result : StreamReadResult) (again : Option WaitReason)
  | waiting
  | woken (reason : WaitReason)
  | answered (result : StreamReadResult)
  | failed (error : Thrown)

structure StreamPoll where
  request : StreamReadRequest
  observedVersion : Nat
  state : PollState
  /-- The reason of an aborted signal. -/
  aborted : Option Thrown := none
  /-- Observation only: the metadata of the snapshots that it has taken. -/
  snapshots : List StreamMeta := []
  /-- Observation only: why its wait has ended, and how many mutations had committed then. -/
  wait : Option (WaitReason × Nat) := none

/-- A promise of `metaLoad`. -/
inductive MetaLoad
  | inFlight
  | resolved (metadata : StreamMeta)
  | rejected (error : Thrown)
  deriving DecidableEq

/-- One stream instance: its storage, its memory and the calls that run in it. Storage
calls take effect when they complete, as they do when they complete in the order in
which they were issued. -/
structure StreamInstance where
  store : StreamStore
  metadata : Option StreamMeta := none
  /-- The index of the current promise among all that were made. -/
  metaLoad : Option Nat := none
  loads : List MetaLoad := []
  changeVersion : Nat := 0
  waiters : List Nat := []
  /-- The mutations in the order of `mutationTail`; only the first of them runs. -/
  mutations : List (String × StreamOp) := []
  polls : Nat → Option StreamPoll := fun _ => none
  /-- Observation only: the stored metadata after each committed mutation. -/
  committed : List StreamMeta := []

/-- The answer of `readSnapshot`. -/
def StreamReadRequest.answer (request : StreamReadRequest) (metadata : StreamMeta) (again : Option WaitReason)
    (chunks : List Bytes) : StreamReadResult :=
  { startIndex := request.startIndex, tailIndex := (metadata.count : Int) - 1, chunks
    state := metadata.state, timedOut := again = some .timeout, error := metadata.error }

/-- `readSnapshot` after a part of its row read. -/
def StreamReadRequest.afterRows (request : StreamReadRequest) (metadata : StreamMeta)
    (again : Option WaitReason) :
    RowRead → PollState
  | .answer (.ok chunks) => .snapshot (request.answer metadata again chunks) again
  | .answer (.error error) => .failed error
  | .await next => .rows metadata (.await next) again

/-- `readSnapshot` with its metadata, up to its first storage call. -/
def StreamReadRequest.readSnapshot (request : StreamReadRequest) (metadata : StreamMeta)
    (again : Option WaitReason) : PollState :=
  match assertOwner metadata request.runId with
  | .error error => .failed error
  | .ok _ =>
    let available := if metadata.state = .expired then 0
      else min request.maxChunks (metadata.count - request.startIndex)
    if 0 < available then
      request.afterRows metadata again (awaitRows metadata.layout request.startIndex available request.maxBytes)
    else .snapshot (request.answer metadata again []) again

/-- What may happen in an instance, at each await. A call of `readChunks` is named by a
number; a part of it that is not there yet changes nothing. -/
inductive StreamEvent
  | readChunks (poll : Nat) (request : StreamReadRequest)
  | loadCompletes (load : Nat)
  | loadFails (load : Nat) (error : Thrown)
  | loadAnswered (poll : Nat)
  | metaAnswered (poll : Nat)
  | rowsComplete (poll : Nat)
  | rowsFail (poll : Nat) (error : Thrown)
  | snapshotAnswered (poll : Nat)
  | waitAnswered (poll : Nat)
  | timeout (poll : Nat)
  | abort (poll : Nat) (reason : Thrown)
  | runMutation (runId : String) (op : StreamOp)
  | transactionCompletes
  | transactionFails

/-- A write is checked before it is queued. -/
def StreamOp.valid : StreamOp → Bool
  | .write _ chunks => (validateStreamWriteChunks chunks).isOk
  | _ => true

namespace StreamInstance

def start (store : StreamStore) : StreamInstance := { store }

def setPoll (poll : Nat) (call : StreamPoll) (inst : StreamInstance) : StreamInstance :=
  { inst with polls := Function.update inst.polls poll (some call) }

@[simp]
theorem setPoll_self {inst : StreamInstance} {poll : Nat} {call : StreamPoll} :
    (inst.setPoll poll call).polls poll = some call :=
  Function.update_self ..

theorem setPoll_other {inst : StreamInstance} {poll other : Nat} {call : StreamPoll} (different : other ≠ poll) :
    (inst.setPoll poll call).polls other = inst.polls other :=
  Function.update_of_ne different ..

/-- The metadata of a snapshot is known. -/
def withMeta (poll : Nat) (call : StreamPoll) (metadata : StreamMeta) (again : Option WaitReason)
    (inst : StreamInstance) : StreamInstance :=
  inst.setPoll poll { call with state := .loaded metadata again, snapshots := call.snapshots ++ [metadata] }

/-- `getMeta` up to its await. -/
def getMeta (poll : Nat) (call : StreamPoll) (again : Option WaitReason) (inst : StreamInstance) :
    StreamInstance :=
  match inst.metadata, inst.metaLoad with
  | some metadata, _ => inst.withMeta poll call metadata again
  | none, some load => inst.setPoll poll { call with state := .loading load again }
  | none, none =>
    { inst with metaLoad := some inst.loads.length, loads := inst.loads ++ [MetaLoad.inFlight] }.setPoll poll
      { call with state := .loading inst.loads.length again }

/-- The end of a wait, unless it has ended before. -/
def finish (reason : WaitReason) (inst : StreamInstance) (poll : Nat) : StreamInstance :=
  match inst.polls poll with
  | none => inst
  | some call =>
    match call.state with
    | .waiting => { inst with waiters := inst.waiters.filter (· ≠ poll) }.setPoll poll
        { call with state := .woken reason, wait := some (reason, inst.committed.length) }
    | _ => inst

def wakeReaders (inst : StreamInstance) : StreamInstance :=
  inst.waiters.foldl (finish .change) { inst with changeVersion := inst.changeVersion + 1 }

def waitForChange (poll : Nat) (call : StreamPoll) (inst : StreamInstance) : StreamInstance :=
  match call.aborted with
  | some reason => inst.setPoll poll { call with state := .failed reason }
  | none =>
    let inst := { inst with waiters := inst.waiters ++ [poll] }.setPoll poll { call with state := .waiting }
    -- A mutation may have committed since the call has inspected the metadata.
    if inst.changeVersion ≠ call.observedVersion then inst.finish .change poll else inst

def readChunks (poll : Nat) (request : StreamReadRequest) (inst : StreamInstance) : StreamInstance :=
  match inst.polls poll with
  | some _ => inst
  | none =>
    match validateStreamReadRequest request with
    | .error error =>
      inst.setPoll poll { request, observedVersion := inst.changeVersion, state := .failed error }
    | .ok _ =>
      -- `getMeta` says which state it is in.
      inst.getMeta poll { request, observedVersion := inst.changeVersion, state := .waiting } none

/-- The callback of the load with what it has read. -/
def loadCompletes (load : Nat) (answer : Except Thrown StreamMeta) (inst : StreamInstance) : StreamInstance :=
  match inst.loads[load]? with
  | some .inFlight =>
    match answer with
    | .ok metadata => { inst with metadata := some metadata, loads := inst.loads.set load (.resolved metadata) }
    | .error error => { inst with loads := inst.loads.set load (.rejected error) }
  | _ => inst

/-- A mutation's transaction has committed, and the mutation goes on to its end. -/
def transactionCommits (store : StreamStore) (metadata : StreamMeta) (inst : StreamInstance) : StreamInstance :=
  wakeReaders { inst with
    store
    metadata := some metadata
    metaLoad := some inst.loads.length
    loads := inst.loads ++ [MetaLoad.resolved metadata]
    mutations := inst.mutations.tail
    committed := inst.committed ++ [metadata] }

def transactionCompletes (inst : StreamInstance) : StreamInstance :=
  match inst.mutations with
  | [] => inst
  | (runId, op) :: mutations =>
    match op.run runId inst.store, nextMeta runId op inst.store with
    | .ok store, .ok metadata => inst.transactionCommits store metadata
    | _, _ => { inst with mutations }

/-- The next part of a `readChunks` call that has been answered what it awaits. -/
def resume (poll : Nat) (call : StreamPoll) (inst : StreamInstance) : StreamEvent → StreamInstance
  | .loadAnswered _ =>
    match call.state with
    | .loading load again =>
      match inst.loads[load]? with
      | some (.resolved metadata) => inst.withMeta poll call metadata again
      | some (.rejected error) => { inst with metaLoad := none }.setPoll poll { call with state := .failed error }
      | _ => inst
    | _ => inst
  | .metaAnswered _ =>
    match call.state with
    | .loaded metadata again => inst.setPoll poll { call with state := call.request.readSnapshot metadata again }
    | _ => inst
  | .rowsComplete _ =>
    match call.state with
    | .rows metadata (.await next) again =>
      inst.setPoll poll { call with state := call.request.afterRows metadata again (next inst.store) }
    | _ => inst
  | .rowsFail _ error =>
    match call.state with
    | .rows .. => inst.setPoll poll { call with state := .failed error }
    | _ => inst
  | .snapshotAnswered _ =>
    match call.state with
    | .snapshot result none =>
      if 0 < result.chunks.length ∨ result.state ≠ .opened ∨ call.request.waitMs = 0 ∨
        call.request.maxChunks = 0 then
        inst.setPoll poll { call with state := .answered result }
      else inst.waitForChange poll call
    | .snapshot result (some _) => inst.setPoll poll { call with state := .answered result }
    | _ => inst
  | .waitAnswered _ =>
    match call.state with
    | .woken reason => inst.getMeta poll call (some reason)
    | _ => inst
  | .abort _ reason =>
    match call.state with
    | .waiting => { inst with waiters := inst.waiters.filter (· ≠ poll) }.setPoll poll
        { call with aborted := some reason, state := .failed reason }
    | _ => inst.setPoll poll { call with aborted := some reason }
  | _ => inst

def next (inst : StreamInstance) (event : StreamEvent) : StreamInstance :=
  match event with
  | .readChunks poll request => inst.readChunks poll request
  | .loadCompletes load => inst.loadCompletes load (loadMeta inst.store)
  | .loadFails load error => inst.loadCompletes load (.error error)
  | .timeout poll => inst.finish .timeout poll
  | .runMutation runId op =>
    if op.valid then { inst with mutations := inst.mutations ++ [(runId, op)] } else inst
  | .transactionCompletes => inst.transactionCompletes
  | .transactionFails => { inst with mutations := inst.mutations.tail }
  | .loadAnswered poll | .metaAnswered poll | .rowsComplete poll | .rowsFail poll _ | .snapshotAnswered poll
  | .waitAnswered poll | .abort poll _ =>
    match inst.polls poll with
    | none => inst
    | some call => inst.resume poll call event

def run (inst : StreamInstance) (events : List StreamEvent) : StreamInstance := events.foldl next inst

end StreamInstance

end CelldWorld
