import CelldWorld.StreamStore

namespace CelldWorld

def MAX_STREAM_READ_BYTES : Nat := 8 * 1024 * 1024
def MAX_STREAM_LONG_POLL_MS : Nat := 20000

structure StreamReadRequest where
  runId : String
  startIndex : Nat
  maxChunks : Nat
  maxBytes : Nat
  waitMs : Nat
  deriving DecidableEq, Repr

/-- `tailIndex` is -1 on a stream without chunks. -/
structure StreamReadResult where
  startIndex : Nat
  tailIndex : Int
  chunks : List Bytes
  state : StreamTerminalState
  timedOut : Bool
  error : Option StreamErrorData
  deriving DecidableEq, Repr

def validateStreamReadRequest (request : StreamReadRequest) : Except Thrown Unit :=
  if request.runId = "" then .error (streamProtocolError "runId is required")
  else if 0x7fffffff < request.startIndex then
    .error (streamProtocolError "startIndex must be between 0 and 2147483647")
  else if NEGOTIATED_STREAM_CHUNKS < request.maxChunks then
    .error (streamProtocolError s!"maxChunks must be between 0 and {NEGOTIATED_STREAM_CHUNKS}")
  else if request.maxBytes < MAX_STREAM_CHUNK_BYTES ∨ MAX_STREAM_READ_BYTES < request.maxBytes then
    .error (streamProtocolError
      s!"maxBytes must be between {MAX_STREAM_CHUNK_BYTES} and {MAX_STREAM_READ_BYTES}")
  else if MAX_STREAM_LONG_POLL_MS < request.waitMs then
    .error (streamProtocolError s!"waitMs must be between 0 and {MAX_STREAM_LONG_POLL_MS}")
  else .ok ()

/-- Payload bytes of some chunks. -/
def byteLength (chunks : List Bytes) : Nat := (chunks.map List.length).sum

namespace StreamDO

/-- `getUint32`, in network byte order. -/
def getUint32 (value : Bytes) (offset : Nat) : Nat :=
  ((value.drop offset).take 4).foldl (fun total byte => total * 256 + byte.toNat) 0

/-- The chunks of a segment, from the `remaining` lengths that start at entry `index` of
its header; `offset` is where the next payload starts. -/
def decodeChunks (value : Bytes) (start : Nat) : Nat → Nat → Nat → Except Thrown (List Bytes × Nat)
  | 0, _, offset => .ok ([], offset)
  | remaining + 1, index, offset => do
    let length := getUint32 value (4 + 4 * index)
    if value.length < offset + length then
      .error (.error s!"Invalid persisted stream segment at index {start}")
    else
      let (chunks, last) ← decodeChunks value start remaining (index + 1) (offset + length)
      .ok ((value.drop offset).take length :: chunks, last)

def decodeSegment (stored : Option Bytes) (start : Nat) (size : SegmentSize) : Except Thrown (List Bytes) :=
  match stored.filter (4 ≤ ·.length) with
  | none => .error (.error s!"Invalid persisted stream segment at index {start}")
  | some value =>
    let count := getUint32 value 0
    let header := 4 + 4 * count
    if count ≠ size.count ∨ header + size.bytes ≠ value.length then
      .error (.error s!"Invalid persisted stream segment at index {start}")
    else do
      let (chunks, offset) ← decodeChunks value start count 0 header
      if offset ≠ value.length then .error (.error s!"Invalid persisted stream segment at index {start}")
      else .ok chunks

/-- The size rows of the chunks that fit in a read after the `bytes` already in it. -/
def selectSizes (store : StreamStore) (maxBytes : Nat) : List Nat → Nat → Except Thrown (List (Nat × Nat))
  | [], _ => .ok []
  | index :: indexes, bytes =>
    match store.chunkSizes[index]? with
    | none => .error (.error s!"Invalid persisted stream chunk size at index {index}")
    | some stored => do
      let size ← validateChunkSize stored index
      if maxBytes < bytes + size then .ok []
      else
        let selected ← selectSizes store maxBytes indexes (bytes + size)
        .ok ((index, size) :: selected)

def readChunkRow (store : StreamStore) (selected : Nat × Nat) : Except Thrown Bytes :=
  match store.chunks[selected.1]? with
  | none => .error (.error s!"Invalid persisted stream chunk at index {selected.1}")
  | some chunk =>
    if chunk.length ≠ selected.2 then .error (.error s!"Invalid persisted stream chunk at index {selected.1}")
    else .ok chunk

def readChunkRows (startIndex available maxBytes : Nat) (store : StreamStore) : Except Thrown (List Bytes) := do
  let selected ← selectSizes store maxBytes (List.range' startIndex available) 0
  selected.mapM (readChunkRow store)

/-- A listed size row, validated. -/
def planSegment (row : Nat × SegmentSize) : Except Thrown (Nat × SegmentSize) := do
  let start ← startFromSegmentKey "segsize:" row.1
  let size ← validateSegmentSize row.2 start
  .ok (start, size)

/-- The segments that a read plans to load: those that start in its range, after the one
that its first index is inside of. -/
def planSegments (startIndex available : Nat) (store : StreamStore) :
    Except Thrown (List (Nat × SegmentSize)) := do
  let listed := (store.segmentSizes.toList.filter fun row =>
    startIndex ≤ row.1 ∧ row.1 < startIndex + available).take available
  let planned ← listed.mapM planSegment
  if planned.head?.map Prod.fst = some startIndex then .ok planned
  else match (store.segmentSizes.toList.filter (·.1 < startIndex + 1)).getLast? with
  | none => .error (.error s!"Missing persisted stream segment at index {startIndex}")
  | some row => do
    let containing ← planSegment row
    .ok (containing :: planned)

/-- The end of what the planned segments cover without a gap or an overlap; only the
`first` of them may start before what is covered. -/
def checkCoverage (first : Bool) (covered : Nat) : List (Nat × SegmentSize) → Except Thrown Nat
  | [] => .ok covered
  | (start, size) :: planned =>
    if covered < start then .error (.error s!"Missing persisted stream segment at index {covered}")
    else if first = false ∧ start ≠ covered then
      .error (.error s!"Overlapping persisted stream segment at index {start}")
    else if start + size.count ≤ covered then
      .error (.error s!"Missing persisted stream segment at index {covered}")
    else checkCoverage false (start + size.count) planned

/-- The planned segments to load for the byte budget, and at least one. -/
def selectSegments (maxBytes : Nat) : List (Nat × SegmentSize) → Nat → List (Nat × SegmentSize)
  | [], _ => []
  | segment :: planned, bytes => segment ::
    if maxBytes ≤ bytes + segment.2.bytes then []
    else selectSegments maxBytes planned (bytes + segment.2.bytes)

/-- The chunks of one decoded segment that a read takes: them, their bytes with those
before, and whether the read ends within the segment. -/
def takeChunks (endIndex maxBytes : Nat) : List Bytes → Nat → Nat → List Bytes × Nat × Bool
  | [], _, bytes => ([], bytes, false)
  | chunk :: chunks, expected, bytes =>
    if endIndex ≤ expected ∨ maxBytes < bytes + chunk.length then ([], bytes, true)
    else
      let (taken, total, ended) := takeChunks endIndex maxBytes chunks (expected + 1) (bytes + chunk.length)
      (chunk :: taken, total, ended)

/-- Load the selected segments and trim them to the read. -/
def loadSegments (endIndex maxBytes : Nat) (store : StreamStore) :
    List (Nat × SegmentSize) → Nat → Nat → Except Thrown (List Bytes)
  | [], _, _ => .ok []
  | (start, size) :: selected, expected, bytes =>
    if expected < start then .error (.error s!"Missing persisted stream segment at index {expected}")
    else do
      let segment ← decodeSegment store.segments[start]? start size
      let (taken, total, ended) := takeChunks endIndex maxBytes (segment.drop (expected - start)) expected bytes
      if ended then .ok taken
      else
        let later ← loadSegments endIndex maxBytes store selected (expected + taken.length) total
        .ok (taken ++ later)

/-- Plan from the small segment size rows, then load only the segments that cover the range. -/
def readSegmentRows (startIndex available maxBytes : Nat) (store : StreamStore) :
    Except Thrown (List Bytes) := do
  let endIndex := startIndex + available
  let planned ← planSegments startIndex available store
  let covered ← checkCoverage true startIndex planned
  if covered < endIndex then .error (.error s!"Missing persisted stream segment at index {covered}")
  else loadSegments endIndex maxBytes store (selectSegments maxBytes planned 0) startIndex 0

/-- The rows of the layout that the stream has. -/
def readRows (layout : Option Nat) (startIndex available maxBytes : Nat) (store : StreamStore) :
    Except Thrown (List Bytes) :=
  if layout = some SEGMENT_LAYOUT then readSegmentRows startIndex available maxBytes store
  else readChunkRows startIndex available maxBytes store

def readSnapshot (request : StreamReadRequest) (timedOut : Bool) (store : StreamStore) :
    Except Thrown StreamReadResult := do
  let metadata ← loadMeta store
  assertOwner metadata request.runId
  let available := if metadata.state = .expired then 0
    else min request.maxChunks (metadata.count - request.startIndex)
  let chunks ← if 0 < available then
      readRows metadata.layout request.startIndex available request.maxBytes store
    else .ok []
  .ok { startIndex := request.startIndex, tailIndex := (metadata.count : Int) - 1, chunks
        state := metadata.state, timedOut, error := metadata.error }

/-- A bounded long poll: `later` and `timedOut` are the stream and the reason when its
wait ends. -/
def readChunks (request : StreamReadRequest) (store later : StreamStore) (timedOut : Bool) :
    Except Thrown StreamReadResult := do
  validateStreamReadRequest request
  let immediate ← readSnapshot request false store
  if 0 < immediate.chunks.length ∨ immediate.state ≠ .opened ∨ request.waitMs = 0 ∨ request.maxChunks = 0 then
    .ok immediate
  else readSnapshot request timedOut later

end StreamDO

/-- The range check of the remote client's `readStreamChunks`. -/
def matchesRequestedRange (request : StreamReadRequest) (result : StreamReadResult) : Bool :=
  !(result.startIndex ≠ request.startIndex ∨
    request.maxChunks < result.chunks.length ∨
    request.maxBytes < byteLength result.chunks ∨
    (0 < result.chunks.length ∧ result.tailIndex < (result.startIndex : Int) + result.chunks.length - 1) ∨
    (0 < request.maxChunks ∧ result.chunks.length = 0 ∧ (result.startIndex : Int) ≤ result.tailIndex ∧
      result.state ≠ .expired))

end CelldWorld
