import CelldWorld.RunStore
import CelldWorld.WorldContract
import Mathlib.Algebra.GroupWithZero.Nat

namespace CelldWorld

abbrev Bytes := List UInt8

/-- Rows of a stream under one key prefix, by their offset. The keys are zero-padded, so
they list in offset order. -/
abbrev OffsetMap (ν : Type) := Std.ExtTreeMap Nat ν

def MAX_STREAM_CHUNK_BYTES : Nat := 1024 * 1024
def MAX_STREAM_BATCH_BYTES : Nat := 8 * 1024 * 1024
def NEGOTIATED_STREAM_CHUNKS : Nat := 512
def MAX_STREAM_INDEX : Nat := 0x7fffffff
def SEGMENT_LAYOUT : Nat := 2
def MAX_SEGMENT_BYTES : Nat := 1024 * 1024
def DEFAULT_EXPIRE_CHUNK_LIMIT : Nat := 64
def MAX_EXPIRE_CHUNK_LIMIT : Nat := 256
def DEFAULT_EXPIRE_BYTE_LIMIT : Nat := 16 * 1024 * 1024
def MAX_EXPIRE_BYTE_LIMIT : Nat := DEFAULT_EXPIRE_BYTE_LIMIT

/-- Layout of the first write of a stream. -/
def NEW_STREAM_LAYOUT : Option Nat := some SEGMENT_LAYOUT

inductive StreamTerminalState
  | opened | closed | errored | expired
  deriving DecidableEq, Repr

structure StreamErrorData where
  name : String
  message : String
  deriving DecidableEq, Repr

structure StreamMeta where
  /-- Number of durable chunks, which is also the next chunk index. -/
  count : Nat
  state : StreamTerminalState
  ownerRunId : Option String := none
  error : Option StreamErrorData := none
  expiredAt : Option Nat := none
  expiredChunkCount : Option Nat := none
  payloadDeleted : Bool := false
  layout : Option Nat := none
  deriving DecidableEq, Repr

structure SegmentSize where
  count : Nat
  bytes : Nat
  deriving DecidableEq, Repr

/-- The storage of one stream cell. -/
structure StreamStore where
  /-- `meta` -/
  metadata : Option StreamMeta := none
  /-- `chunk:` -/
  chunks : OffsetMap Bytes := ∅
  /-- `chunk-size:` -/
  chunkSizes : OffsetMap Nat := ∅
  /-- `seg:` -/
  segments : OffsetMap Bytes := ∅
  /-- `segsize:` -/
  segmentSizes : OffsetMap SegmentSize := ∅

structure StreamWriteResult where
  startIndex : Nat
  count : Nat
  tailIndex : Nat
  deriving DecidableEq, Repr

structure ExpireStreamResult where
  deleted : Bool
  chunks : Nat
  bytes : Nat
  done : Bool
  deriving DecidableEq, Repr

def streamProtocolError (message : String) : Thrown :=
  .error s!"world-celld: invalid stream protocol: {message}"

/-- The chunks of one write request, with the bytes of those before them. -/
def validateChunkBytes (totalBytes : Nat) : List Bytes → Except Thrown Nat
  | [] => .ok totalBytes
  | chunk :: chunks =>
    if MAX_STREAM_CHUNK_BYTES < chunk.length then
      .error (streamProtocolError s!"chunk exceeds {MAX_STREAM_CHUNK_BYTES} bytes")
    else if MAX_STREAM_BATCH_BYTES < totalBytes + chunk.length then
      .error (streamProtocolError s!"batch exceeds {MAX_STREAM_BATCH_BYTES} bytes")
    else validateChunkBytes (totalBytes + chunk.length) chunks

def validateStreamWriteChunks (chunks : List Bytes) : Except Thrown Nat :=
  if chunks.length = 0 then .error (streamProtocolError "batch must contain at least one chunk")
  else if NEGOTIATED_STREAM_CHUNKS < chunks.length then
    .error (streamProtocolError s!"batch exceeds {NEGOTIATED_STREAM_CHUNKS} chunks")
  else validateChunkBytes 0 chunks

def boundedLimit (value : Option Nat) (fallback maximum : Nat) : Nat :=
  match value with
  | none => fallback
  | some value => max 1 (min maximum value)

namespace StreamDO

def emptyMeta : StreamMeta := { count := 0, state := .opened }

def validateMeta (metadata : StreamMeta) : Except Thrown StreamMeta :=
  if MAX_STREAM_INDEX < metadata.count ∨ metadata.layout.any (· ≠ SEGMENT_LAYOUT) then
    .error (.error "Invalid persisted stream metadata")
  else if decide (metadata.state = .errored) ≠ metadata.error.isSome then
    .error (.error "Invalid persisted stream error metadata")
  else .ok metadata

/-- The stored metadata, or that of a stream without any. -/
def loadMeta (store : StreamStore) : Except Thrown StreamMeta :=
  match store.metadata with
  | none => .ok emptyMeta
  | some stored => validateMeta stored

def offsetSuffix (index : Nat) : String :=
  let digits := (toString index).toList
  String.ofList (List.replicate (12 - digits.length) '0' ++ digits)

def indexFromChunkSizeKey (index : Nat) : Except Thrown Nat :=
  if MAX_STREAM_INDEX < index then
    .error (.error s!"Invalid persisted stream chunk size key \"chunk-size:{offsetSuffix index}\"")
  else .ok index

def indexFromChunkKey (index : Nat) : Except Thrown Nat :=
  if MAX_STREAM_INDEX < index then
    .error (.error s!"Invalid persisted stream chunk key \"chunk:{offsetSuffix index}\"")
  else .ok index

def startFromSegmentKey (keyPrefix : String) (start : Nat) : Except Thrown Nat :=
  if MAX_STREAM_INDEX < start then
    .error (.error s!"Invalid persisted stream segment key \"{keyPrefix}{offsetSuffix start}\"")
  else .ok start

def validateChunkSize (size index : Nat) : Except Thrown Nat :=
  if MAX_STREAM_CHUNK_BYTES < size then
    .error (.error s!"Invalid persisted stream chunk size at index {index}")
  else .ok size

def validateSegmentSize (size : SegmentSize) (start : Nat) : Except Thrown SegmentSize :=
  if MAX_SAFE_INTEGER < size.count ∨ size.count < 1 ∨ MAX_SAFE_INTEGER < size.bytes then
    .error (.error s!"Invalid persisted stream segment size at index {start}")
  else .ok size

/-- `setUint32`, in network byte order. -/
def uint32 (value : Nat) : Bytes :=
  [value / 16777216, value / 65536, value / 256, value].map UInt8.ofNat

/-- Pack chunks as their count, the length of each, and their bytes. -/
def encodeSegment (chunks : List Bytes) : Bytes :=
  uint32 chunks.length ++ chunks.flatMap (fun chunk => uint32 chunk.length) ++ chunks.flatten

/-- Group one write's chunks into segments of at most `MAX_SEGMENT_BYTES` payload bytes;
`current` is the segment that starts at `start`. -/
def packFrom (start : Nat) (current : List Bytes) (bytes : Nat) : List Bytes → List (Nat × List Bytes)
  | [] => if current ≠ [] then [(start, current)] else []
  | chunk :: chunks =>
    if current ≠ [] ∧ MAX_SEGMENT_BYTES < bytes + chunk.length then
      (start, current) :: packFrom (start + current.length) [chunk] chunk.length chunks
    else packFrom start (current ++ [chunk]) (bytes + chunk.length) chunks

def packSegments (startIndex : Nat) (chunks : List Bytes) : List (Nat × List Bytes) :=
  packFrom startIndex [] 0 chunks

def assertOwner (metadata : StreamMeta) (runId : String) : Except Thrown Unit :=
  if runId = "" then .error (.error "Stream runId is required")
  else match metadata.ownerRunId with
    | none => .ok ()
    | some owner =>
      if owner ≠ runId then .error (.error s!"Stream is owned by workflow run \"{owner}\"") else .ok ()

def assertWritable (metadata : StreamMeta) (runId : String) : Except Thrown Unit := do
  assertOwner metadata runId
  match metadata.state with
  | .expired => .error (.error s!"Workflow run \"{runId}\" has expired")
  | .closed => .error (.error "Cannot write to a closed stream")
  | .errored => .error (.error "Cannot write to an errored stream")
  | .opened => .ok ()

def putSegment (store : StreamStore) (segment : Nat × List Bytes) : StreamStore :=
  { store with
    segments := store.segments.insert segment.1 (encodeSegment segment.2)
    segmentSizes := store.segmentSizes.insert segment.1
      ⟨segment.2.length, (segment.2.map List.length).sum⟩ }

def putChunk (store : StreamStore) (chunk : Nat × Bytes) : StreamStore :=
  { store with
    chunks := store.chunks.insert chunk.1 chunk.2
    chunkSizes := store.chunkSizes.insert chunk.1 chunk.2.length }

/-- The rows of one write: a row for each segment, or for each chunk. -/
def putRows (layout : Option Nat) (startIndex : Nat) (chunks : List Bytes) (store : StreamStore) : StreamStore :=
  if layout = some SEGMENT_LAYOUT then (packSegments startIndex chunks).foldl putSegment store
  else (chunks.zipIdx startIndex).foldl (fun store (chunk, index) => putChunk store (index, chunk)) store

/-- Append one bounded binary batch with contiguous indexes. A stream keeps the layout
it was created with, which is `newLayout` at its first write. -/
def writeChunks (newLayout : Option Nat) (runId : String) (chunks : List Bytes) (store : StreamStore) :
    Except Thrown (StreamWriteResult × StreamStore) := do
  let _ ← validateStreamWriteChunks chunks
  let metadata ← loadMeta store
  assertWritable metadata runId
  let startIndex := metadata.count
  if MAX_STREAM_INDEX < startIndex + chunks.length then .error (.error "Stream offset limit exceeded")
  else
    let layout := if store.metadata = none then newLayout else metadata.layout
    let next : StreamMeta :=
      { count := startIndex + chunks.length, state := .opened, ownerRunId := some runId, layout }
    .ok (⟨startIndex, chunks.length, next.count - 1⟩,
      putRows layout startIndex chunks { store with metadata := some next })

/-- End an open stream with the metadata that records how; the first terminal state wins. -/
def endStream (ended : StreamMeta → StreamMeta) (runId : String) (store : StreamStore) :
    Except Thrown StreamStore := do
  let metadata ← loadMeta store
  assertOwner metadata runId
  match metadata.state with
  | .expired => .error (.error s!"Workflow run \"{runId}\" has expired")
  | .opened => .ok { store with metadata := some (ended metadata) }
  | .closed | .errored => .ok store

/-- Close idempotently. -/
def closeStream (runId : String) (store : StreamStore) : Except Thrown StreamStore :=
  endStream ({ · with ownerRunId := some runId, state := .closed }) runId store

/-- Persist a terminal stream failure, which is already normalized. -/
def failStream (runId : String) (normalized : StreamErrorData) (store : StreamStore) :
    Except Thrown StreamStore :=
  endStream ({ · with ownerRunId := some runId, state := .errored, error := some normalized }) runId store

def deleteChunk (store : StreamStore) (index : Nat) : StreamStore :=
  { store with chunks := store.chunks.erase index, chunkSizes := store.chunkSizes.erase index }

def deleteSegment (store : StreamStore) (start : Nat) : StreamStore :=
  { store with segments := store.segments.erase start, segmentSizes := store.segmentSizes.erase start }

/-- The chunks that fit in a page after those already in it, and at least one. -/
def chunkPage (byteLimit : Nat) : List (Nat × Nat) → List Nat → Nat → Except Thrown (List Nat × Nat)
  | [], page, bytes => .ok (page, bytes)
  | (key, storedSize) :: candidates, page, bytes => do
    let index ← indexFromChunkSizeKey key
    let size ← validateChunkSize storedSize index
    if page ≠ [] ∧ byteLimit < bytes + size then .ok (page, bytes)
    else chunkPage byteLimit candidates (page ++ [index]) (bytes + size)

/-- Delete one page of chunk rows: how many, their bytes, and whether none is left. -/
def expireChunkPage (limit byteLimit : Nat) (store : StreamStore) :
    Except Thrown ((Nat × Nat × Bool) × StreamStore) := do
  let candidates := store.chunkSizes.toList.take (limit + 1)
  match candidates, store.chunks.toList.head? with
  | [], some (key, payload) => do
    let index ← indexFromChunkKey key
    let store := deleteChunk store index
    .ok ((1, payload.length, store.chunks.isEmpty), store)
  | _, _ => do
    let (page, bytes) ← chunkPage byteLimit (candidates.take limit) [] 0
    let store := page.foldl deleteChunk store
    let done := candidates.length = page.length ∧ (candidates.length = 0 ∨ store.chunks.isEmpty)
    .ok ((page.length, bytes, done), store)

/-- The segments that fit in a page after those already in it, and at least one. -/
def segmentPage (limit byteLimit : Nat) :
    List (Nat × SegmentSize) → List Nat → Nat → Nat → Except Thrown (List Nat × Nat × Nat)
  | [], page, chunks, bytes => .ok (page, chunks, bytes)
  | (key, value) :: candidates, page, chunks, bytes => do
    let start ← startFromSegmentKey "segsize:" key
    let size ← validateSegmentSize value start
    if page ≠ [] ∧ (limit < chunks + size.count ∨ byteLimit < bytes + size.bytes) then .ok (page, chunks, bytes)
    else segmentPage limit byteLimit candidates (page ++ [start]) (chunks + size.count) (bytes + size.bytes)

/-- Delete one page of segment rows. One segment always makes progress. -/
def expireSegmentPage (limit byteLimit : Nat) (store : StreamStore) :
    Except Thrown ((Nat × Nat × Bool) × StreamStore) := do
  let candidates := store.segmentSizes.toList.take (limit + 1)
  match candidates, store.segments.toList.head? with
  | [], some (key, segment) => do
    let start ← startFromSegmentKey "seg:" key
    let store := deleteSegment store start
    .ok ((1, segment.length, store.segments.isEmpty), store)
  | _, _ => do
    let (page, chunks, bytes) ← segmentPage limit byteLimit candidates [] 0 0
    let store := page.foldl deleteSegment store
    let done := candidates.length = page.length ∧ store.segments.isEmpty
    .ok ((chunks, bytes, done), store)

/-- The page of the layout that the stream has. -/
def expirePage (layout : Option Nat) (limit byteLimit : Nat) (store : StreamStore) :
    Except Thrown ((Nat × Nat × Bool) × StreamStore) :=
  if layout = some SEGMENT_LAYOUT then expireSegmentPage limit byteLimit store
  else expireChunkPage limit byteLimit store

/-- Fence the stream and delete one bounded page. -/
def expireStream (runId : String) (expiredAt : Nat) (limit byteLimit : Option Nat) (store : StreamStore) :
    Except Thrown (ExpireStreamResult × StreamStore) := do
  let limit := boundedLimit limit DEFAULT_EXPIRE_CHUNK_LIMIT MAX_EXPIRE_CHUNK_LIMIT
  let byteLimit := boundedLimit byteLimit DEFAULT_EXPIRE_BYTE_LIMIT MAX_EXPIRE_BYTE_LIMIT
  let metadata ← loadMeta store
  assertOwner metadata runId
  let ((chunks, bytes, done), store) ← expirePage metadata.layout limit byteLimit store
  if done ∧ chunks = 0 ∧ metadata.state = .expired ∧ metadata.payloadDeleted then
    .ok (⟨false, 0, 0, true⟩, store)
  else
    let next : StreamMeta := { metadata with
      count := if done then 0 else metadata.count
      ownerRunId := some runId
      state := .expired
      error := none
      expiredAt := some (metadata.expiredAt.getD expiredAt)
      expiredChunkCount := some (metadata.expiredChunkCount.getD metadata.count)
      payloadDeleted := done }
    .ok (⟨metadata.state ≠ .expired, chunks, bytes, done⟩, { store with metadata := some next })

end StreamDO

end CelldWorld
