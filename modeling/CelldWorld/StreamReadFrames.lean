import CelldWorld.Library.TextCodec
import CelldWorld.StreamFormats

namespace CelldWorld

open StreamDO

def READ_MAGIC : Nat := 0x57435352
def READ_HEADER_BYTES : Nat := 28
def MAX_STREAM_ERROR_BYTES : Nat := 16 * 1024

/-- A string of the runtime, which is code units. -/
abbrev JsText := List UInt16

/-- The error of a stream, as its frame carries it. -/
structure StreamErrorText where
  name : JsText
  message : JsText
  deriving DecidableEq, Repr

/-- What a stream can be aborted with. -/
inductive StreamFailure
  /-- An `Error`. -/
  | error (name message : JsText)
  | text (message : JsText)
  /-- Another object with a name and a message. -/
  | named (name message : JsText)
  /-- Anything else, as a string. -/
  | other (shown : JsText)
  deriving DecidableEq, Repr

def errorName : JsText := [0x45, 0x72, 0x72, 0x6f, 0x72]

/-- The name and the message of a failure, before they are bounded. -/
def StreamFailure.described : StreamFailure → StreamErrorText
  | .error name message => ⟨if name = [] then errorName else name, message⟩
  | .text message => ⟨errorName, message⟩
  | .named name message => ⟨name, message⟩
  | .other shown => ⟨errorName, shown⟩

def StreamErrorText.bytes (error : StreamErrorText) : Nat :=
  (TextCodec.encode error.name).length + (TextCodec.encode error.message).length

/-- Cut the message, and the name once there is no message left, until they fit. -/
def trimStreamError (error : StreamErrorText) : StreamErrorText :=
  if _over : MAX_STREAM_ERROR_BYTES < error.bytes then
    let message := error.message.take (error.message.length - 256)
    trimStreamError ⟨if message.length = 0 then error.name.take (error.name.length - 256)
      else error.name, message⟩
  else error
termination_by error.name.length + error.message.length
decreasing_by
  have filled : error.name ≠ [] ∨ error.message ≠ [] := by
    by_cases empty : error.name = []
    · refine .inr fun none_ => ?_
      rw [StreamErrorText.bytes, empty, none_] at _over
      exact absurd _over (by decide)
    · exact .inl empty
  simp only [List.length_take]
  rcases filled with named | written
  · have some_ := List.length_pos_iff.mpr named
    split
    · rw [List.length_take]
      omega
    · omega
  · have some_ := List.length_pos_iff.mpr written
    split
    · rw [List.length_take]
      omega
    · omega

def normalizeStreamError (failure : StreamFailure) : StreamErrorText :=
  trimStreamError ⟨failure.described.name.take 1024, failure.described.message.take 4096⟩

/-- The result of a read as the protocol carries it. -/
structure StreamReadFrame where
  startIndex : Int
  tailIndex : Int
  chunks : List Bytes
  state : StreamTerminalState
  timedOut : Bool
  error : Option StreamErrorText
  deriving DecidableEq, Repr

/-- The result of a read of a stream whose stored error is the given one. -/
def StreamReadResult.frame (result : StreamReadResult) (stored : StreamErrorText) : StreamReadFrame where
  startIndex := result.startIndex
  tailIndex := result.tailIndex
  chunks := result.chunks
  state := result.state
  timedOut := result.timedOut
  error := result.error.map fun _ => stored

def STATE_TO_WIRE : StreamTerminalState → Nat
  | .opened => 0
  | .closed => 1
  | .errored => 2
  | .expired => 3

def WIRE_TO_STATE : Nat → Option StreamTerminalState
  | 0 => some .opened
  | 1 => some .closed
  | 2 => some .errored
  | 3 => some .expired
  | _ => none

/-- What a `DataView` is written with, field by field. -/
def DataView.fields (values : List (Nat × Nat)) : Bytes :=
  values.flatMap fun (width, value) => BigEndian.encode width value

/-- The header of a frame: the width and the value of each field. -/
def StreamReadFrame.header (result : StreamReadFrame) (errorNameLength errorMessageLength : Nat) :
    List (Nat × Nat) :=
  [(4, READ_MAGIC), (1, PROTOCOL_VERSION), (1, STATE_TO_WIRE result.state),
    (1, if result.timedOut then 1 else 0), (1, 0),
    (4, BigEndian.ofSigned 4 result.startIndex), (4, BigEndian.ofSigned 4 result.tailIndex),
    (4, result.chunks.length),
    (4, errorNameLength), (4, errorMessageLength)]

def encodeStreamReadResult (result : StreamReadFrame) : Except Thrown Bytes := do
  requireSafeIndex result.startIndex "startIndex"
  requireSafeIndex result.tailIndex "tailIndex"
  let chunkBytes := (result.chunks.map fun chunk => 4 + chunk.length).sum
  if NEGOTIATED_STREAM_CHUNKS < result.chunks.length ∨
      MAX_STREAM_READ_BYTES + 4 * NEGOTIATED_STREAM_CHUNKS < chunkBytes then
    .error (streamProtocolError "read result exceeds configured bounds")
  else
    let errorName := (result.error.map fun error => TextCodec.encode error.name).getD []
    let errorMessage := (result.error.map fun error => TextCodec.encode error.message).getD []
    if MAX_STREAM_ERROR_BYTES < errorName.length + errorMessage.length then
      .error (streamProtocolError s!"stream error exceeds {MAX_STREAM_ERROR_BYTES} bytes")
    else .ok (DataView.fields (result.header errorName.length errorMessage.length) ++
      (result.chunks.flatMap chunkFrame ++ (errorName ++ errorMessage)))

def readFrameLimits : FrameLimits :=
  ⟨"truncated read chunk length", "truncated read chunk data",
    some (MAX_STREAM_READ_BYTES, "read bytes exceed limit")⟩

def decodeStreamReadResult (encoded : Bytes) : Except Thrown StreamReadFrame :=
  if encoded.length < READ_HEADER_BYTES then .error (streamProtocolError "truncated read header")
  else do
    let magic ← DataView.getUint32 encoded 0
    if magic ≠ READ_MAGIC then .error (streamProtocolError "bad read magic")
    else
      let version ← DataView.getUint8 encoded 4
      if version ≠ PROTOCOL_VERSION then .error (streamProtocolError "unsupported read version")
      else
        let wire ← DataView.getUint8 encoded 5
        match WIRE_TO_STATE wire with
        | none => .error (streamProtocolError "unknown stream state")
        | some state =>
          let startIndex ← DataView.getInt32 encoded 8
          let tailIndex ← DataView.getInt32 encoded 12
          requireSafeIndex startIndex "startIndex"
          requireSafeIndex tailIndex "tailIndex"
          let count ← DataView.getUint32 encoded 16
          let errorNameLength ← DataView.getUint32 encoded 20
          let errorMessageLength ← DataView.getUint32 encoded 24
          if NEGOTIATED_STREAM_CHUNKS < count then .error (streamProtocolError "read chunk count exceeds limit")
          else if MAX_STREAM_ERROR_BYTES < errorNameLength + errorMessageLength then
            .error (streamProtocolError "read error exceeds limit")
          else
            let (chunks, offset) ← decodeChunkFrames readFrameLimits encoded count READ_HEADER_BYTES 0
            if offset + errorNameLength + errorMessageLength ≠ encoded.length then
              .error (streamProtocolError "invalid read error payload")
            else
              let flags ← DataView.getUint8 encoded 6
              -- an error is there where its texts take any bytes
              .ok { startIndex, tailIndex, chunks, state, timedOut := flags % 2 ≠ 0
                    error := if 0 < errorNameLength ∨ 0 < errorMessageLength then
                        some ⟨TextCodec.decode (BigEndian.slice encoded offset errorNameLength),
                          TextCodec.decode (encoded.drop (offset + errorNameLength))⟩
                      else none }

/-! The fields and the texts of a frame. -/

theorem DataView.fields_length {values : List (Nat × Nat)} :
    (fields values).length = (values.map Prod.fst).sum := by
  induction values with
  | nil => rfl
  | cons field values ih =>
    have split_ : fields (field :: values) = BigEndian.encode field.1 field.2 ++ fields values := rfl
    rw [split_, List.length_append, ih, BigEndian.encode_length, List.map_cons, List.sum_cons]

/-- Each field is read where it was written. -/
theorem DataView.getUint_field {values : List (Nat × Nat)} {width value offset : Nat} {rest : Bytes} (index : Nat)
    (field : values[index]? = some (width, value)) (position : ((values.take index).map Prod.fst).sum = offset)
    (fits : value < 256 ^ width) : getUint (fields values ++ rest) offset width = .ok value := by
  obtain ⟨inside, same⟩ := List.getElem?_eq_some_iff.mp field
  have split_ : fields values ++ rest =
      fields (values.take index) ++
        (BigEndian.encode width value ++ (fields (values.drop (index + 1)) ++ rest)) := by
    have parts : values = values.take index ++ (width, value) :: values.drop (index + 1) := by
      rw [← same, List.getElem_cons_drop, List.take_append_drop]
    calc fields values ++ rest
        = fields (values.take index ++ (width, value) :: values.drop (index + 1)) ++ rest := by rw [← parts]
      _ = _ := by simp only [fields, List.flatMap_append, List.flatMap_cons, List.append_assoc]
  rw [split_, ← position, ← fields_length]
  exact getUint_encode fits

theorem wireState_read {state : StreamTerminalState} : WIRE_TO_STATE (STATE_TO_WIRE state) = some state := by
  cases state <;> rfl

/-- The texts of a failure fit as they were cut, so they are not trimmed any further. -/
theorem normalizeStreamError_eq {failure : StreamFailure} :
    normalizeStreamError failure = ⟨failure.described.name.take 1024, failure.described.message.take 4096⟩ ∧
      (normalizeStreamError failure).bytes ≤ MAX_STREAM_ERROR_BYTES := by
  have fits : (⟨failure.described.name.take 1024, failure.described.message.take 4096⟩ : StreamErrorText).bytes ≤
      MAX_STREAM_ERROR_BYTES := by
    have name := @TextCodec.encode_length (failure.described.name.take 1024)
    have message := @TextCodec.encode_length (failure.described.message.take 4096)
    rw [List.length_take] at name message
    unfold StreamErrorText.bytes MAX_STREAM_ERROR_BYTES
    simp only
    omega
  have same : normalizeStreamError failure =
      ⟨failure.described.name.take 1024, failure.described.message.take 4096⟩ := by
    unfold normalizeStreamError trimStreamError
    exact dif_neg (Nat.not_lt.mpr fits)
  exact ⟨same, same ▸ fits⟩

theorem length_le_byteLength {chunk : Bytes} {chunks : List Bytes} (member : chunk ∈ chunks) :
    chunk.length ≤ byteLength chunks := by
  induction member with
  | head rest => exact Nat.le_add_right _ _
  | tail first _ ih =>
    rw [byteLength_cons]
    exact Nat.le_trans ih (Nat.le_add_left _ _)

/-- The error of a frame, as it is read back. -/
def carriedError (error : Option StreamErrorText) : Option StreamErrorText :=
  error.bind fun error =>
    if error.name = [] ∧ error.message = [] then none
    else some ⟨TextCodec.decode (TextCodec.encode error.name), TextCodec.decode (TextCodec.encode error.message)⟩

theorem carriedError_some (error : StreamErrorText) : carriedError (some error) =
    if 0 < (TextCodec.encode error.name).length ∨ 0 < (TextCodec.encode error.message).length then
      some ⟨TextCodec.decode (TextCodec.encode error.name), TextCodec.decode (TextCodec.encode error.message)⟩
    else none := by
  have some_ (text : JsText) : 0 < (TextCodec.encode text).length ↔ text ≠ [] := by
    rw [List.length_pos_iff, ne_eq, TextCodec.encode_eq_nil]
  rw [carriedError, Option.bind_some]
  simp only [some_]
  split
  · rename_i empty
    rw [if_neg fun filled => filled.elim (· empty.1) (· empty.2)]
  · rename_i filled
    rw [if_pos (Decidable.not_and_iff_or_not.mp filled)]

/-- A frame within the limits is written, and all of it but its error is read back. -/
theorem decodeStreamReadResult_encode {frame : StreamReadFrame}
    (startSafe : requireSafeIndex frame.startIndex "startIndex" = .ok ())
    (tailSafe : requireSafeIndex frame.tailIndex "tailIndex" = .ok ())
    (few : frame.chunks.length ≤ NEGOTIATED_STREAM_CHUNKS)
    (within : byteLength frame.chunks ≤ MAX_STREAM_READ_BYTES)
    (short : ∀ error ∈ frame.error, error.bytes ≤ MAX_STREAM_ERROR_BYTES) :
    ∃ encoded, encodeStreamReadResult frame = .ok encoded ∧
      decodeStreamReadResult encoded = .ok { frame with error := carriedError frame.error } := by
  generalize nameIs : (frame.error.map fun error => TextCodec.encode error.name).getD [] = errorName
  generalize messageIs : (frame.error.map fun error => TextCodec.encode error.message).getD [] = errorMessage
  have texts : errorName.length + errorMessage.length ≤ MAX_STREAM_ERROR_BYTES := by
    rw [← nameIs, ← messageIs]
    cases carried : frame.error with
    | none => exact Nat.zero_le _
    | some error => exact short error carried
  have total : (frame.chunks.map fun chunk => 4 + chunk.length).sum ≤
      MAX_STREAM_READ_BYTES + 4 * NEGOTIATED_STREAM_CHUNKS := by
    have framed : (frame.chunks.map fun chunk => 4 + chunk.length).sum =
        (frame.chunks.flatMap chunkFrame).length := by
      rw [List.length_flatMap]
      refine congrArg List.sum (List.map_congr_left fun chunk _ => ?_)
      rw [chunkFrame, List.length_append, BigEndian.encode_length]
    rw [framed, chunkFrames_length]
    omega
  unfold encodeStreamReadResult
  simp only [startSafe, tailSafe, bind, Except.bind, nameIs, messageIs]
  rw [if_neg (by omega), if_neg (by omega)]
  refine ⟨_, rfl, ?_⟩
  have sizes : NEGOTIATED_STREAM_CHUNKS < 256 ^ 4 ∧ MAX_STREAM_ERROR_BYTES < 256 ^ 4 ∧
      MAX_STREAM_READ_BYTES < 256 ^ 4 := by
    decide
  have small : ∀ chunk ∈ frame.chunks, chunk.length < 256 ^ 4 := fun chunk member => by
    exact Nat.lt_of_le_of_lt (Nat.le_trans (length_le_byteLength member) within) sizes.2.2
  have header : (DataView.fields (frame.header errorName.length errorMessage.length)).length =
      READ_HEADER_BYTES :=
    DataView.fields_length
  have framed := @decodeChunkFrames_frames readFrameLimits
    (DataView.fields (frame.header errorName.length errorMessage.length)) (errorName ++ errorMessage)
      frame.chunks 0 small
    (fun limit member => by
      cases member
      rwa [Nat.zero_add])
  rw [header] at framed
  generalize payload : frame.chunks.flatMap chunkFrame ++ (errorName ++ errorMessage) = rest at framed ⊢
  have magicRead : DataView.getUint
    (DataView.fields (frame.header errorName.length errorMessage.length) ++ rest) 0 4 =
      .ok READ_MAGIC := DataView.getUint_field 0 rfl rfl (by decide)
  have versionRead : DataView.getUint
    (DataView.fields (frame.header errorName.length errorMessage.length) ++ rest) 4 1 =
      .ok PROTOCOL_VERSION := DataView.getUint_field 1 rfl rfl (by decide)
  have stateRead : DataView.getUint
    (DataView.fields (frame.header errorName.length errorMessage.length) ++ rest) 5 1 =
      .ok (STATE_TO_WIRE frame.state) := DataView.getUint_field 2 rfl rfl (by cases frame.state <;> decide)
  have flagsRead : DataView.getUint
    (DataView.fields (frame.header errorName.length errorMessage.length) ++ rest) 6 1 =
      .ok (if frame.timedOut then 1 else 0) :=
        DataView.getUint_field 3 rfl rfl (by cases frame.timedOut <;> decide)
  have startRead : DataView.getUint
    (DataView.fields (frame.header errorName.length errorMessage.length) ++ rest) 8 4 =
      .ok (BigEndian.ofSigned 4 frame.startIndex) := DataView.getUint_field 5 rfl rfl ofSigned_lt
  have tailRead : DataView.getUint
    (DataView.fields (frame.header errorName.length errorMessage.length) ++ rest) 12 4 =
      .ok (BigEndian.ofSigned 4 frame.tailIndex) := DataView.getUint_field 6 rfl rfl ofSigned_lt
  have countRead : DataView.getUint
    (DataView.fields (frame.header errorName.length errorMessage.length) ++ rest) 16 4 =
      .ok frame.chunks.length := DataView.getUint_field 7 rfl rfl (by omega)
  have nameRead : DataView.getUint
    (DataView.fields (frame.header errorName.length errorMessage.length) ++ rest) 20 4 =
      .ok errorName.length := DataView.getUint_field 8 rfl rfl (by omega)
  have messageRead : DataView.getUint
    (DataView.fields (frame.header errorName.length errorMessage.length) ++ rest) 24 4 =
      .ok errorMessage.length := DataView.getUint_field 9 rfl rfl (by omega)
  unfold decodeStreamReadResult
  rw [if_neg (by rw [List.length_append, header]; omega)]
  simp only [DataView.getUint32, DataView.getUint8, DataView.getInt32, bind, Except.bind, Except.map,
    magicRead, versionRead,
    stateRead, flagsRead, startRead, tailRead, countRead, nameRead, messageRead, wireState_read,
    ne_eq, not_true_eq_false,
    if_false, toSigned_safeIndex startSafe, toSigned_safeIndex tailSafe, startSafe, tailSafe, framed]
  rw [if_neg (by omega), if_neg (by omega)]
  have beforeName : (DataView.fields (frame.header errorName.length errorMessage.length) ++ rest).length =
      READ_HEADER_BYTES + (frame.chunks.flatMap chunkFrame).length + errorName.length + errorMessage.length := by
    rw [List.length_append, header, ← payload, List.length_append, List.length_append]
    omega
  have nameSlice : BigEndian.slice (DataView.fields (frame.header errorName.length errorMessage.length) ++ rest)
      (READ_HEADER_BYTES + (frame.chunks.flatMap chunkFrame).length) errorName.length = errorName := by
    have middle := @BigEndian.slice_mid
      (DataView.fields (frame.header errorName.length errorMessage.length) ++ frame.chunks.flatMap chunkFrame)
      errorName errorMessage
    rwa [List.length_append, header, List.append_assoc, payload] at middle
  have messageSlice : (DataView.fields (frame.header errorName.length errorMessage.length) ++ rest).drop
      (READ_HEADER_BYTES + (frame.chunks.flatMap chunkFrame).length + errorName.length) = errorMessage := by
    have behind := @List.drop_left _ (DataView.fields (frame.header errorName.length errorMessage.length) ++
      (frame.chunks.flatMap chunkFrame ++ errorName)) errorMessage
    rw [List.length_append, List.length_append, header, List.append_assoc, List.append_assoc, payload] at behind
    rwa [Nat.add_assoc]
  have carried : (if 0 < errorName.length ∨ 0 < errorMessage.length then
      some (⟨TextCodec.decode errorName, TextCodec.decode errorMessage⟩ : StreamErrorText) else none) =
      carriedError frame.error := by
    rw [← nameIs, ← messageIs]
    cases frame.error with
    | none => rfl
    | some error => exact (carriedError_some error).symm
  have flags : decide (¬ (if frame.timedOut = true then 1 else 0) % 2 = 0) = frame.timedOut := by
    cases frame.timedOut <;> rfl
  rw [beforeName, if_neg (not_not.mpr rfl), nameSlice, messageSlice, carried]
  simp only [flags]

/-- A text that UTF-8 carries: no lone surrogate, and no byte order mark at its start. -/
def JsText.Carried (text : JsText) : Prop :=
  TextCodec.isWellFormed text = true ∧ text.head? ≠ some (UInt16.ofNat TextCodec.BYTE_ORDER_MARK)

/-- An error that its frame carries: it has a text, and its texts are carried. -/
def StreamErrorText.Carried (error : StreamErrorText) : Prop :=
  (error.name ≠ [] ∨ error.message ≠ []) ∧ error.name.Carried ∧ error.message.Carried

theorem carriedError_iff {error : StreamErrorText} : carriedError (some error) = some error ↔ error.Carried := by
  have parts : (⟨TextCodec.decode (TextCodec.encode error.name),
    TextCodec.decode (TextCodec.encode error.message)⟩ :
      StreamErrorText) = error ↔ error.name.Carried ∧ error.message.Carried := by
    unfold JsText.Carried
    rw [← TextCodec.decode_encode_iff, ← TextCodec.decode_encode_iff]
    cases error
    exact StreamErrorText.mk.injEq .. ▸ Iff.rfl
  rw [carriedError, Option.bind_some, StreamErrorText.Carried]
  split
  · rename_i empty
    exact ⟨nofun, fun carried => absurd empty (Decidable.not_and_iff_or_not.mpr carried.1)⟩
  · rename_i filled
    rw [Option.some_inj, parts]
    exact ⟨fun carried => ⟨Decidable.not_and_iff_or_not.mp filled, carried⟩, And.right⟩

/-! What a read answers, of any stored rows. -/

section Reads
variable {store later : StreamStore} {request : StreamReadRequest} {timedOut : Bool} {result : StreamReadResult}

theorem selectSizes_bounds {maxBytes bytes : Nat} {indexes : List Nat} {selected : List (Nat × Nat)}
    (within : bytes ≤ maxBytes)
    (call : selectSizes store maxBytes indexes bytes = .ok selected) :
    selected.length ≤ indexes.length ∧ bytes + (selected.map Prod.snd).sum ≤ maxBytes := by
  induction indexes generalizing bytes selected with
  | nil =>
    cases call
    exact ⟨Nat.le_refl 0, within⟩
  | cons index indexes ih =>
    rw [selectSizes] at call
    split at call
    · cases call
    obtain ⟨size, -, call⟩ := bind_ok.mp call
    split at call
    · cases call
      exact ⟨Nat.zero_le _, within⟩
    · rename_i fits
      obtain ⟨rest, selection, call⟩ := bind_ok.mp call
      cases call
      obtain ⟨few, bound⟩ := ih (Nat.le_of_not_lt fits) selection
      refine ⟨Nat.succ_le_succ few, ?_⟩
      rw [List.map_cons, List.sum_cons]
      omega

theorem readChunkRow_length {selected : Nat × Nat} {chunk : Bytes}
    (call : readChunkRow store selected = .ok chunk) :
    chunk.length = selected.2 := by
  unfold readChunkRow at call
  split at call
  · cases call
  split at call
  · cases call
  · rename_i same
    cases call
    exact Decidable.not_not.mp same

theorem mapM_readChunkRow {selected : List (Nat × Nat)} {chunks : List Bytes}
    (call : selected.mapM (readChunkRow store) = .ok chunks) :
    chunks.map List.length = selected.map Prod.snd := by
  induction selected generalizing chunks with
  | nil =>
    cases call
    rfl
  | cons row selected ih =>
    rw [List.mapM_cons] at call
    obtain ⟨chunk, read, call⟩ := bind_ok.mp call
    obtain ⟨rest, rows, call⟩ := bind_ok.mp call
    cases call
    rw [List.map_cons, List.map_cons, readChunkRow_length read, ih rows]

theorem readChunkRows_bounds {startIndex available maxBytes : Nat} {chunks : List Bytes}
    (call : readChunkRows startIndex available maxBytes store = .ok chunks) :
    chunks.length ≤ available ∧ byteLength chunks ≤ maxBytes := by
  obtain ⟨selected, selection, rows⟩ := bind_ok.mp call
  obtain ⟨few, bound⟩ := selectSizes_bounds (Nat.zero_le maxBytes) selection
  rw [List.length_range'] at few
  have same := mapM_readChunkRow rows
  refine ⟨?_, ?_⟩
  · have lengths := congrArg List.length same
    rw [List.length_map, List.length_map] at lengths
    omega
  · rw [byteLength, same]
    omega

theorem takeChunks_bounds {endIndex maxBytes expected bytes total : Nat} {chunks taken : List Bytes}
    {ended : Bool}
    (position : expected ≤ endIndex) (within : bytes ≤ maxBytes)
    (call : takeChunks endIndex maxBytes chunks expected bytes = (taken, total, ended)) :
    expected + taken.length ≤ endIndex ∧ total = bytes + byteLength taken ∧ total ≤ maxBytes := by
  induction chunks generalizing expected bytes taken total ended with
  | nil =>
    cases call
    exact ⟨position, rfl, within⟩
  | cons chunk chunks ih =>
    rw [takeChunks] at call
    split at call
    · cases call
      exact ⟨position, rfl, within⟩
    · rename_i fits
      obtain ⟨few, sum, bound⟩ :=
        ih (by omega : expected + 1 ≤ endIndex) (by omega : bytes + chunk.length ≤ maxBytes) rfl
      cases call
      refine ⟨by rw [List.length_cons]; omega, ?_, bound⟩
      rw [sum, byteLength_cons, Nat.add_assoc]

theorem loadSegments_bounds {endIndex maxBytes expected bytes : Nat} {selected : List (Nat × SegmentSize)}
    {chunks : List Bytes}
    (position : expected ≤ endIndex) (within : bytes ≤ maxBytes)
    (call : loadSegments endIndex maxBytes store selected expected bytes = .ok chunks) :
    expected + chunks.length ≤ endIndex ∧ bytes + byteLength chunks ≤ maxBytes := by
  induction selected generalizing expected bytes chunks with
  | nil =>
    cases call
    exact ⟨position, within⟩
  | cons segment selected ih =>
    rw [loadSegments] at call
    split at call
    · cases call
    obtain ⟨decoded, -, call⟩ := bind_ok.mp call
    rcases part : takeChunks endIndex maxBytes (decoded.drop (expected - segment.1)) expected
      bytes with ⟨taken, total, ended⟩
    obtain ⟨few, sum, bound⟩ := takeChunks_bounds position within part
    simp only [part] at call
    split at call
    · cases call
      exact ⟨few, sum ▸ bound⟩
    · obtain ⟨rest, loaded, call⟩ := bind_ok.mp call
      cases call
      obtain ⟨laterFew, laterBound⟩ := ih few bound loaded
      rw [List.length_append, byteLength_append]
      exact ⟨by omega, by omega⟩

/-- A read of rows keeps to its range and to its byte limit. -/
theorem readRows_bounds {layout : Option Nat} {startIndex available maxBytes : Nat} {chunks : List Bytes}
    (call : readRows layout startIndex available maxBytes store = .ok chunks) :
    chunks.length ≤ available ∧ byteLength chunks ≤ maxBytes := by
  unfold readRows at call
  split at call
  · unfold readSegmentRows at call
    obtain ⟨planned, -, call⟩ := bind_ok.mp call
    obtain ⟨covered, -, call⟩ := bind_ok.mp call
    split at call
    · cases call
    obtain ⟨few, bound⟩ := loadSegments_bounds (Nat.le_add_right startIndex available) (Nat.zero_le maxBytes) call
    exact ⟨by omega, by omega⟩
  · exact readChunkRows_bounds call

/-- The result of a read is within the limits of its request, and it has an error exactly where
the stream is errored. -/
theorem readSnapshot_bounds (call : readSnapshot request timedOut store = .ok result) :
    result.startIndex = request.startIndex ∧ -1 ≤ result.tailIndex ∧ result.tailIndex < MAX_STREAM_INDEX ∧
      result.chunks.length ≤ request.maxChunks ∧ byteLength result.chunks ≤ request.maxBytes ∧
      (result.state = .errored ↔ result.error.isSome = true) := by
  unfold readSnapshot at call
  obtain ⟨metadata, load, call⟩ := bind_ok.mp call
  obtain ⟨_, -, call⟩ := bind_ok.mp call
  obtain ⟨-, counted, -, errors⟩ := validateMeta_iff.mp (loadMeta_valid load)
  have errored : metadata.state = .errored ↔ metadata.error.isSome = true := by
    rw [← errors, decide_eq_true_eq]
  generalize availableIs : (if metadata.state = .expired then 0
    else min request.maxChunks (metadata.count - request.startIndex)) = available at call
  have few : available ≤ request.maxChunks := by
    rw [← availableIs]
    split
    · exact Nat.zero_le _
    · exact Nat.min_le_left _ _
  simp only at call
  split at call
  · obtain ⟨chunks, rows, call⟩ := bind_ok.mp call
    obtain ⟨counted', bound⟩ := readRows_bounds rows
    cases call
    exact ⟨rfl, by simp only; omega, by simp only; omega, Nat.le_trans counted' few, bound, errored⟩
  · cases call
    exact ⟨rfl, by simp only; omega, by simp only; omega, Nat.zero_le _, Nat.zero_le _, errored⟩

theorem validateStreamReadRequest_bounds (valid : validateStreamReadRequest request = .ok ()) :
    request.startIndex ≤ 0x7fffffff ∧ request.maxChunks ≤ NEGOTIATED_STREAM_CHUNKS ∧
      request.maxBytes ≤ MAX_STREAM_READ_BYTES := by
  unfold validateStreamReadRequest at valid
  split at valid
  · cases valid
  split at valid
  · cases valid
  split at valid
  · cases valid
  split at valid
  · cases valid
  · omega

/-- A read answers a snapshot of a validated request. -/
theorem readChunks_snapshot (call : readChunks request store later timedOut = .ok result) :
    validateStreamReadRequest request = .ok () ∧ ∃ from_ ended,
      readSnapshot request ended from_ = .ok result := by
  unfold readChunks at call
  obtain ⟨⟨⟩, valid, call⟩ := bind_ok.mp call
  obtain ⟨immediate, snapshot, call⟩ := bind_ok.mp call
  split at call
  · cases call
    exact ⟨valid, store, false, snapshot⟩
  · exact ⟨valid, later, timedOut, call⟩

end Reads

/-- Every result of a read is written as a frame. It is read back exactly where the stream is not
errored, or the texts of its error, cut as they are stored, are carried by UTF-8. -/
theorem streamReadFrame_roundTrip {request : StreamReadRequest} {store later : StreamStore} {timedOut : Bool}
    {result : StreamReadResult} (read : readChunks request store later timedOut = .ok result)
    (failure : StreamFailure) :
    let frame := result.frame (normalizeStreamError failure)
    (frame.error.isSome = true ↔ frame.state = .errored) ∧
      ∃ encoded, encodeStreamReadResult frame = .ok encoded ∧
        (decodeStreamReadResult encoded = .ok frame ↔ (result.state = .errored →
          StreamErrorText.Carried ⟨failure.described.name.take 1024, failure.described.message.take 4096⟩)) := by
  obtain ⟨valid, from_, ended, snapshot⟩ := readChunks_snapshot read
  obtain ⟨low, few, short⟩ := validateStreamReadRequest_bounds valid
  obtain ⟨start, tailLow, tailHigh, counted, within, errored⟩ := readSnapshot_bounds snapshot
  obtain ⟨same, bound⟩ := @normalizeStreamError_eq failure
  intro frame
  have present : frame.error.isSome = true ↔ frame.state = .errored := by
    rw [show frame.error = result.error.map fun _ => normalizeStreamError failure from rfl, Option.isSome_map]
    exact errored.symm
  have limit : MAX_STREAM_INDEX = 0x7fffffff := rfl
  obtain ⟨encoded, written, readBack⟩ := @decodeStreamReadResult_encode frame
    (requireSafeIndex_ok.mpr ⟨show -1 ≤ (result.startIndex : Int) by omega, show (result.startIndex : Int) ≤
      0x7fffffff by omega⟩)
    (requireSafeIndex_ok.mpr ⟨tailLow, by rw [limit] at tailHigh; exact Int.le_of_lt tailHigh⟩)
    (Nat.le_trans counted few) (Nat.le_trans within short) (fun error carried => by
      obtain ⟨_, -, rfl⟩ := Option.map_eq_some_iff.mp carried
      exact bound)
  refine ⟨present, encoded, written, ?_⟩
  rw [readBack, Except.ok.injEq, ← same]
  have errors : ({ frame with error := carriedError frame.error } : StreamReadFrame) = frame ↔
      carriedError frame.error = frame.error := by
    cases frame
    simp only [StreamReadFrame.mk.injEq, true_and]
  rw [errors]
  cases stored : result.error with
  | none =>
    have none_ : frame.error = none := congrArg (Option.map fun _ => normalizeStreamError failure) stored
    rw [stored] at errored
    rw [none_]
    exact ⟨fun _ state => absurd (errored.mp state) nofun, fun _ => rfl⟩
  | some _ =>
    have some_ : frame.error = some (normalizeStreamError failure) :=
      congrArg (Option.map fun _ => normalizeStreamError failure) stored
    rw [stored] at errored
    rw [some_, carriedError_iff]
    exact ⟨fun carried _ => carried, fun carried => carried (errored.mpr rfl)⟩

/-- A stream that failed before its first chunk. -/
def failedStream : StreamStore :=
  { metadata := some { count := 0, state := .errored, ownerRunId := some "run", error := some ⟨"", ""⟩ } }

theorem failedStream_read : readChunks ⟨"run", 0, 4, MAX_STREAM_CHUNK_BYTES, 0⟩ failedStream failedStream false =
    .ok ⟨0, -1, [], .errored, false, some ⟨"", ""⟩⟩ := by
  decide +kernel

theorem streamReadFrame_roundTrip_text : ∃ encoded,
    encodeStreamReadResult ((⟨0, -1, [], .errored, false, some ⟨"", ""⟩⟩ : StreamReadResult).frame
      (normalizeStreamError (.text [0x68, 0x69]))) = .ok encoded ∧
    decodeStreamReadResult encoded = .ok ((⟨0, -1, [], .errored, false, some ⟨"", ""⟩⟩ : StreamReadResult).frame
      (normalizeStreamError (.text [0x68, 0x69]))) := by
  obtain ⟨-, encoded, written, readBack⟩ := streamReadFrame_roundTrip failedStream_read (.text [0x68, 0x69])
  refine ⟨encoded, written, readBack.mpr fun _ => ⟨.inl nofun, ⟨rfl, ?_⟩, rfl, ?_⟩⟩
  · decide
  · decide

/-- An error without a text is not in the frame of its stream. -/
theorem streamReadFrame_textless : ∃ result encoded,
    readChunks ⟨"run", 0, 4, MAX_STREAM_CHUNK_BYTES, 0⟩ failedStream failedStream false = .ok result ∧
      result.state = .errored ∧
      encodeStreamReadResult (result.frame (normalizeStreamError (.named [] []))) = .ok encoded ∧
      decodeStreamReadResult encoded ≠ .ok (result.frame (normalizeStreamError (.named [] []))) := by
  have stored : normalizeStreamError (.named [] []) = ⟨[], []⟩ := normalizeStreamError_eq.1
  refine ⟨_, DataView.fields ((⟨0, -1, [], .errored, false, none⟩ : StreamReadFrame).header 0 0),
    failedStream_read, rfl, ?_, ?_⟩
  · rw [stored]
    decide +kernel
  · rw [stored]
    decide +kernel

end CelldWorld
