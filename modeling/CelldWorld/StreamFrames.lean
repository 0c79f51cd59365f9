import CelldWorld.StreamReading
import CelldWorld.StreamPages
import CelldWorld.Library.BigEndian

namespace CelldWorld

open StreamDO

def WRITE_MAGIC : Nat := 0x57435357
def WRITE_ACK_MAGIC : Nat := 0x57435341
def PROTOCOL_VERSION : Nat := 1
def WRITE_HEADER_BYTES : Nat := 8
def WRITE_ACK_BYTES : Nat := 16

/-- What a `DataView` throws for a read that does not lie within its bytes. -/
def rangeError : Thrown := .error "Offset is outside the bounds of the DataView"

namespace DataView

def getUint (view : Bytes) (offset width : Nat) : Except Thrown Nat :=
  if offset + width ≤ view.length then .ok (BigEndian.decode (BigEndian.slice view offset width))
  else .error rangeError

def getUint8 (view : Bytes) (offset : Nat) : Except Thrown Nat := getUint view offset 1
def getUint16 (view : Bytes) (offset : Nat) : Except Thrown Nat := getUint view offset 2
def getUint32 (view : Bytes) (offset : Nat) : Except Thrown Nat := getUint view offset 4
def getInt32 (view : Bytes) (offset : Nat) : Except Thrown Int :=
  (getUint view offset 4).map (BigEndian.toSigned 4)

variable {view : Bytes} {offset width : Nat}

theorem getUint_inside (inside : offset + width ≤ view.length) :
    getUint view offset width = .ok (BigEndian.decode (BigEndian.slice view offset width)) :=
  if_pos inside

theorem getUint_encode {before after : Bytes} {value : Nat} (fits : value < 256 ^ width) :
    getUint (before ++ (BigEndian.encode width value ++ after)) before.length width = .ok value := by
  have inside : before.length + width ≤ (before ++ (BigEndian.encode width value ++ after)).length := by
    simp only [List.length_append, BigEndian.encode_length]
    omega
  have read : BigEndian.slice (before ++ (BigEndian.encode width value ++ after)) before.length width =
      BigEndian.encode width value := by
    have middle := @BigEndian.slice_mid before (BigEndian.encode width value) after
    rwa [BigEndian.encode_length] at middle
  rw [getUint_inside inside, read, BigEndian.decode_encode fits]

end DataView

/-- A chunk behind its length. -/
def chunkFrame (chunk : Bytes) : Bytes := BigEndian.encode 4 chunk.length ++ chunk

/-- The texts of the errors of a list of framed chunks, with the bytes that it may carry. -/
structure FrameLimits where
  truncatedLength : String
  truncatedData : String
  maxBytes : Option (Nat × String) := none

/-- The `remaining` framed chunks from an offset on, and where they end. -/
def decodeChunkFrames (limits : FrameLimits) (encoded : Bytes) :
    Nat → Nat → Nat → Except Thrown (List Bytes × Nat)
  | 0, offset, _ => .ok ([], offset)
  | remaining + 1, offset, totalBytes =>
    if encoded.length < offset + 4 then .error (streamProtocolError limits.truncatedLength)
    else do
      let length ← DataView.getUint32 encoded offset
      let offset := offset + 4
      if encoded.length < offset + length then .error (streamProtocolError limits.truncatedData)
      else match limits.maxBytes.filter (·.1 < totalBytes + length) with
      | some exceeded => .error (streamProtocolError exceeded.2)
      | none =>
        let (chunks, last) ← decodeChunkFrames limits encoded remaining (offset + length) (totalBytes + length)
        .ok (BigEndian.slice encoded offset length :: chunks, last)

def encodeStreamWriteBatch (chunks : List Bytes) : Except Thrown Bytes := do
  let _ ← validateStreamWriteChunks chunks
  .ok (BigEndian.encode 4 WRITE_MAGIC ++ (BigEndian.encode 2 PROTOCOL_VERSION ++
    (BigEndian.encode 2 chunks.length ++ chunks.flatMap chunkFrame)))

def writeFrameLimits : FrameLimits := ⟨"truncated chunk length", "truncated chunk data", none⟩

def decodeStreamWriteBatch (encoded : Bytes) : Except Thrown (List Bytes) :=
  if encoded.length < WRITE_HEADER_BYTES then .error (streamProtocolError "truncated write header")
  else do
    let magic ← DataView.getUint32 encoded 0
    if magic ≠ WRITE_MAGIC then .error (streamProtocolError "bad write magic")
    else
      let version ← DataView.getUint16 encoded 4
      if version ≠ PROTOCOL_VERSION then .error (streamProtocolError "unsupported write version")
      else
        let count ← DataView.getUint16 encoded 6
        let (chunks, offset) ← decodeChunkFrames writeFrameLimits encoded count WRITE_HEADER_BYTES 0
        if offset ≠ encoded.length then .error (streamProtocolError "trailing write data")
        else
          let _ ← validateStreamWriteChunks chunks
          .ok chunks

/-- A write acknowledgement as the protocol carries it. -/
structure StreamWriteAck where
  startIndex : Int
  count : Int
  tailIndex : Int
  deriving DecidableEq, Repr

/-- The acknowledgement of a write. -/
def StreamWriteResult.ack (result : StreamWriteResult) : StreamWriteAck :=
  ⟨result.startIndex, result.count, result.tailIndex⟩

def requireSafeIndex (value : Int) (field : String) : Except Thrown Unit :=
  if value < -1 ∨ 0x7fffffff < value then .error (streamProtocolError s!"{field} is out of range") else .ok ()

def encodeStreamWriteResult (result : StreamWriteAck) : Except Thrown Bytes := do
  requireSafeIndex result.startIndex "startIndex"
  requireSafeIndex result.tailIndex "tailIndex"
  if result.count < 1 ∨ NEGOTIATED_STREAM_CHUNKS < result.count then
    .error (streamProtocolError "write count is out of range")
  else .ok (BigEndian.encode 4 WRITE_ACK_MAGIC ++ (BigEndian.encode 2 PROTOCOL_VERSION ++
    (BigEndian.encode 2 result.count.toNat ++ (BigEndian.encode 4 (BigEndian.ofSigned 4 result.startIndex) ++
      BigEndian.encode 4 (BigEndian.ofSigned 4 result.tailIndex)))))

def decodeStreamWriteResult (encoded : Bytes) : Except Thrown StreamWriteAck :=
  if encoded.length ≠ WRITE_ACK_BYTES then .error (streamProtocolError "invalid write response size")
  else do
    let magic ← DataView.getUint32 encoded 0
    if magic ≠ WRITE_ACK_MAGIC then .error (streamProtocolError "bad write response magic")
    else
      let version ← DataView.getUint16 encoded 4
      if version ≠ PROTOCOL_VERSION then .error (streamProtocolError "unsupported write response version")
      else
        let count ← DataView.getUint16 encoded 6
        if count < 1 ∨ NEGOTIATED_STREAM_CHUNKS < count then
          .error (streamProtocolError "write response count is out of range")
        else
          let startIndex ← DataView.getInt32 encoded 8
          let tailIndex ← DataView.getInt32 encoded 12
          requireSafeIndex startIndex "startIndex"
          requireSafeIndex tailIndex "tailIndex"
          if tailIndex ≠ startIndex + count - 1 then
            .error (streamProtocolError "write response offsets are inconsistent")
          else .ok ⟨startIndex, count, tailIndex⟩

namespace StreamDO

/-- The loop of `decodeSegment` with the view that it reads from. -/
def decodeChunksView (value : Bytes) (start : Nat) : Nat → Nat → Nat → Except Thrown (List Bytes × Nat)
  | 0, _, offset => .ok ([], offset)
  | remaining + 1, index, offset => do
    let length ← DataView.getUint32 value (4 + 4 * index)
    if value.length < offset + length then
      .error (.error s!"Invalid persisted stream segment at index {start}")
    else
      let (chunks, last) ← decodeChunksView value start remaining (index + 1) (offset + length)
      .ok ((value.drop offset).take length :: chunks, last)

/-- `decodeSegment` with the view that it reads from. -/
def decodeSegmentView (stored : Option Bytes) (start : Nat) (size : SegmentSize) : Except Thrown (List Bytes) :=
  match stored.filter (4 ≤ ·.length) with
  | none => .error (.error s!"Invalid persisted stream segment at index {start}")
  | some value => do
    let count ← DataView.getUint32 value 0
    let header := 4 + 4 * count
    if count ≠ size.count ∨ header + size.bytes ≠ value.length then
      .error (.error s!"Invalid persisted stream segment at index {start}")
    else
      let (chunks, offset) ← decodeChunksView value start count 0 header
      if offset ≠ value.length then .error (.error s!"Invalid persisted stream segment at index {start}")
      else .ok chunks

end StreamDO

/-! The framed chunks of a write or a read. -/

variable {limits : FrameLimits} {encoded before after : Bytes} {chunks : List Bytes}
  {remaining offset totalBytes last : Nat}

theorem chunkFrames_length : (chunks.flatMap chunkFrame).length = 4 * chunks.length + byteLength chunks := by
  induction chunks with
  | nil => rfl
  | cons chunk chunks ih =>
    rw [List.flatMap_cons, List.length_append, ih, chunkFrame, List.length_append, BigEndian.encode_length,
      byteLength_cons, List.length_cons]
    omega

/-- Framed chunks are read back, where they keep within the limit. -/
theorem decodeChunkFrames_frames (small : ∀ chunk ∈ chunks, chunk.length < 256 ^ 4)
    (within : ∀ limit ∈ limits.maxBytes, totalBytes + byteLength chunks ≤ limit.1) :
    decodeChunkFrames limits (before ++ (chunks.flatMap chunkFrame ++ after)) chunks.length
      before.length totalBytes =
      .ok (chunks, before.length + (chunks.flatMap chunkFrame).length) := by
  induction chunks generalizing before totalBytes with
  | nil => rfl
  | cons chunk chunks ih =>
    have fits := small chunk (List.mem_cons_self ..)
    have header : before ++ ((chunk :: chunks).flatMap chunkFrame ++ after) =
        before ++ (BigEndian.encode 4 chunk.length ++ (chunk ++ (chunks.flatMap chunkFrame ++ after))) := by
      simp only [List.flatMap_cons, chunkFrame, List.append_assoc]
    have data : before ++ ((chunk :: chunks).flatMap chunkFrame ++ after) =
        (before ++ BigEndian.encode 4 chunk.length) ++ (chunk ++ (chunks.flatMap chunkFrame ++ after)) := by
      rw [header, List.append_assoc]
    have rest : before ++ ((chunk :: chunks).flatMap chunkFrame ++ after) =
        (before ++ chunkFrame chunk) ++ (chunks.flatMap chunkFrame ++ after) := by
      simp only [List.flatMap_cons, List.append_assoc]
    have dataStart : (before ++ BigEndian.encode 4 chunk.length).length = before.length + 4 := by
      rw [List.length_append, BigEndian.encode_length]
    have restStart : (before ++ chunkFrame chunk).length = before.length + 4 + chunk.length := by
      rw [chunkFrame, List.length_append, List.length_append, BigEndian.encode_length, Nat.add_assoc]
    have long : before.length + 4 + chunk.length ≤
        (before ++ ((chunk :: chunks).flatMap chunkFrame ++ after)).length := by
      rw [rest, List.length_append, restStart]
      omega
    have read : DataView.getUint32 (before ++ ((chunk :: chunks).flatMap chunkFrame ++ after)) before.length =
        .ok chunk.length := by
      rw [header]
      exact DataView.getUint_encode fits
    have unlimited : limits.maxBytes.filter (·.1 < totalBytes + chunk.length) = none := by
      rw [Option.filter_eq_none_iff]
      intro limit member
      have bound := within limit member
      rw [byteLength_cons] at bound
      simp only [decide_eq_true_eq]
      omega
    have later := @ih (before ++ chunkFrame chunk) (totalBytes + chunk.length)
      (fun other member => small other (List.mem_cons_of_mem _ member)) (fun limit member => by
        have bound := within limit member
        rw [byteLength_cons] at bound
        omega)
    rw [← rest, restStart] at later
    have taken : BigEndian.slice (before ++ ((chunk :: chunks).flatMap chunkFrame ++ after)) (before.length + 4)
        chunk.length = chunk := by
      rw [data, ← dataStart]
      exact BigEndian.slice_mid
    have total : before.length + 4 + chunk.length + (chunks.flatMap chunkFrame).length =
        before.length + ((chunk :: chunks).flatMap chunkFrame).length := by
      rw [chunkFrames_length, chunkFrames_length, byteLength_cons, List.length_cons]
      omega
    rw [List.length_cons, decodeChunkFrames, if_neg (by omega), read]
    simp only [bind, Except.bind]
    rw [if_neg (by omega), unlimited]
    simp only
    rw [later, taken, total]

/-- What is read is framed in the bytes that were read. -/
theorem decodeChunkFrames_ok (inside : offset ≤ encoded.length)
    (call : decodeChunkFrames limits encoded remaining offset totalBytes = .ok (chunks, last)) :
    chunks.length = remaining ∧ last ≤ encoded.length ∧
      encoded.drop offset = chunks.flatMap chunkFrame ++ encoded.drop last ∧
      last = offset + (chunks.flatMap chunkFrame).length := by
  induction remaining generalizing offset totalBytes chunks with
  | zero =>
    cases call
    exact ⟨rfl, inside, rfl, rfl⟩
  | succ remaining ih =>
    rw [decodeChunkFrames] at call
    split at call
    · cases call
    rename_i header
    rw [DataView.getUint32, DataView.getUint_inside (Nat.le_of_not_lt header)] at call
    simp only [bind, Except.bind] at call
    split at call
    · cases call
    rename_i data
    split at call
    · cases call
    obtain ⟨⟨rest, last'⟩, later, call⟩ := bind_ok.mp call
    cases call
    dsimp only at ih ⊢
    have bounded := Nat.le_of_not_lt data
    obtain ⟨counted, ends, framed, same⟩ := ih bounded later
    generalize lengthIs : BigEndian.decode (BigEndian.slice encoded offset 4) = length at *
    have taken := BigEndian.slice_length bounded
    have prefixed : BigEndian.encode 4 length = BigEndian.slice encoded offset 4 := by
      rw [← lengthIs]
      exact BigEndian.encode_decode (BigEndian.slice_length (Nat.le_of_not_lt header))
    refine ⟨congrArg (· + 1) counted, ends, ?_, ?_⟩
    · calc encoded.drop offset
          = BigEndian.slice encoded offset 4 ++ encoded.drop (offset + 4) := BigEndian.drop_slice
        _ = BigEndian.slice encoded offset 4 ++ (BigEndian.slice encoded (offset + 4) length ++
              encoded.drop (offset + 4 + length)) := congrArg _ BigEndian.drop_slice
        _ = _ := by
            rw [framed, List.flatMap_cons, chunkFrame, taken, prefixed]
            simp only [List.append_assoc]
    · rw [same, List.flatMap_cons, chunkFrame, List.length_append, List.length_append,
        BigEndian.encode_length, taken]
      omega

/-- Every read of the loop lies within the bytes. -/
theorem decodeChunkFrames_error {thrown : Thrown}
    (call : decodeChunkFrames limits encoded remaining offset totalBytes = .error thrown) :
    thrown = streamProtocolError limits.truncatedLength ∨ thrown = streamProtocolError limits.truncatedData ∨
      ∃ limit ∈ limits.maxBytes, thrown = streamProtocolError limit.2 := by
  induction remaining generalizing offset totalBytes with
  | zero => cases call
  | succ remaining ih =>
    rw [decodeChunkFrames] at call
    split at call
    · cases call
      exact .inl rfl
    rename_i header
    rw [DataView.getUint32, DataView.getUint_inside (Nat.le_of_not_lt header)] at call
    simp only [bind, Except.bind] at call
    split at call
    · cases call
      exact .inr (.inl rfl)
    split at call
    · rename_i exceeded found
      cases call
      exact .inr (.inr ⟨exceeded, (Option.filter_eq_some_iff.mp found).1, rfl⟩)
    split at call
    · rename_i later
      cases call
      exact ih later
    · cases call

end CelldWorld
