import CelldWorld.StreamFrames
import CelldWorld.StreamSessions

namespace CelldWorld

open StreamDO

theorem streamProtocolError_ne {message : String} : streamProtocolError message ≠ rangeError := by
  intro same
  have texts := congrArg String.toList (Thrown.error.inj same)
  simp only [String.toList_append, toString] at texts
  have heads := congrArg List.head? texts
  simp at heads

variable {encoded : Bytes} {chunks : List Bytes} {ack : StreamWriteAck}

/-- A field that a view reads is encoded there. -/
theorem encode_getUint {offset width value : Nat} (inside : offset + width ≤ encoded.length)
    (read : DataView.getUint encoded offset width = .ok value) :
    encoded.drop offset = BigEndian.encode width value ++ encoded.drop (offset + width) := by
  rw [DataView.getUint_inside inside] at read
  rw [← Except.ok.inj read, BigEndian.encode_decode (BigEndian.slice_length inside)]
  exact BigEndian.drop_slice

theorem getUint_lt {offset width value : Nat} (read : DataView.getUint encoded offset width = .ok value) :
    value < 256 ^ width := by
  unfold DataView.getUint at read
  split at read
  · rename_i inside
    have bound := @BigEndian.decode_lt (BigEndian.slice encoded offset width)
    rw [BigEndian.slice_length inside] at bound
    exact Except.ok.inj read ▸ bound
  · cases read

theorem validateStreamWriteChunks_count {total : Nat} (valid : validateStreamWriteChunks chunks = .ok total) :
    1 ≤ chunks.length ∧ chunks.length ≤ NEGOTIATED_STREAM_CHUNKS := by
  unfold validateStreamWriteChunks at valid
  split at valid
  · cases valid
  split at valid
  · cases valid
  · omega

theorem validateChunkBytes_error {bytes : Nat} {thrown : Thrown}
    (invalid : validateChunkBytes bytes chunks = .error thrown) :
    ∃ message, thrown = streamProtocolError message := by
  induction chunks generalizing bytes with
  | nil => cases invalid
  | cons chunk chunks ih =>
    unfold validateChunkBytes at invalid
    split at invalid
    · exact ⟨_, (Except.error.inj invalid).symm⟩
    split at invalid
    · exact ⟨_, (Except.error.inj invalid).symm⟩
    · exact ih invalid

theorem validateStreamWriteChunks_error {thrown : Thrown}
    (invalid : validateStreamWriteChunks chunks = .error thrown) :
    ∃ message, thrown = streamProtocolError message := by
  unfold validateStreamWriteChunks at invalid
  split at invalid
  · exact ⟨_, (Except.error.inj invalid).symm⟩
  split at invalid
  · exact ⟨_, (Except.error.inj invalid).symm⟩
  · exact validateChunkBytes_error invalid

/-- A batch is read from exactly the bytes that it is written as. -/
theorem decodeStreamWriteBatch_iff :
    decodeStreamWriteBatch encoded = .ok chunks ↔ encodeStreamWriteBatch chunks = .ok encoded := by
  constructor
  · intro call
    unfold decodeStreamWriteBatch at call
    split at call
    · cases call
    rename_i long
    have header : 8 ≤ encoded.length := Nat.le_of_not_lt long
    obtain ⟨magic, magicRead, call⟩ := bind_ok.mp call
    split at call
    · cases call
    rename_i magicIs
    cases Decidable.not_not.mp magicIs
    obtain ⟨version, versionRead, call⟩ := bind_ok.mp call
    split at call
    · cases call
    rename_i versionIs
    cases Decidable.not_not.mp versionIs
    obtain ⟨count, countRead, call⟩ := bind_ok.mp call
    obtain ⟨⟨read, offset⟩, framed, call⟩ := bind_ok.mp call
    dsimp only at call
    split at call
    · cases call
    rename_i whole
    cases Decidable.not_not.mp whole
    obtain ⟨total, valid, call⟩ := bind_ok.mp call
    cases call
    obtain ⟨counted, -, frames, -⟩ := decodeChunkFrames_ok header framed
    have magicBytes := encode_getUint (Nat.le_trans (by decide) header) magicRead
    have versionBytes := encode_getUint (Nat.le_trans (by decide) header) versionRead
    have countBytes := encode_getUint (Nat.le_trans (by decide) header) countRead
    rw [encodeStreamWriteBatch, valid]
    refine congrArg Except.ok ?_
    rw [counted]
    calc BigEndian.encode 4 WRITE_MAGIC ++ (BigEndian.encode 2 PROTOCOL_VERSION ++
            (BigEndian.encode 2 count ++ chunks.flatMap chunkFrame))
        = BigEndian.encode 4 WRITE_MAGIC ++ (BigEndian.encode 2 PROTOCOL_VERSION ++
            (BigEndian.encode 2 count ++ encoded.drop 8)) := by
          rw [show encoded.drop 8 = _ from frames, List.drop_length, List.append_nil]
      _ = encoded := by
          rw [← countBytes, ← versionBytes, ← magicBytes, List.drop_zero]
  · intro call
    obtain ⟨total, valid, call⟩ := bind_ok.mp call
    cases call
    obtain ⟨-, few⟩ := validateStreamWriteChunks_count valid
    obtain ⟨-, small⟩ := validateStreamWriteChunks_ok valid
    have magicRead := @DataView.getUint_encode 4 [] (BigEndian.encode 2 PROTOCOL_VERSION ++
      (BigEndian.encode 2 chunks.length ++ chunks.flatMap chunkFrame)) WRITE_MAGIC (by decide)
    have versionRead := @DataView.getUint_encode 2 (BigEndian.encode 4 WRITE_MAGIC)
      (BigEndian.encode 2 chunks.length ++ chunks.flatMap chunkFrame) PROTOCOL_VERSION (by decide)
    have countRead := @DataView.getUint_encode 2
      (BigEndian.encode 4 WRITE_MAGIC ++ BigEndian.encode 2 PROTOCOL_VERSION) (chunks.flatMap chunkFrame)
      chunks.length (Nat.lt_of_le_of_lt few (by decide))
    have framed := @decodeChunkFrames_frames writeFrameLimits
      (BigEndian.encode 4 WRITE_MAGIC ++
        (BigEndian.encode 2 PROTOCOL_VERSION ++ BigEndian.encode 2 chunks.length)) []
      chunks 0 (fun chunk member => Nat.lt_of_le_of_lt (small chunk member) (by decide)) nofun
    simp only [List.append_assoc, List.append_nil, List.nil_append, List.length_append, BigEndian.encode_length,
      List.length_nil] at magicRead versionRead countRead framed
    unfold decodeStreamWriteBatch
    rw [if_neg (by simp only [List.length_append, BigEndian.encode_length, WRITE_HEADER_BYTES]; omega)]
    simp only [DataView.getUint32, DataView.getUint16, magicRead, versionRead, countRead, bind, Except.bind,
      ne_eq, not_true_eq_false, if_false]
    rw [show WRITE_HEADER_BYTES = 4 + (2 + 2) from rfl, framed]
    simp only
    rw [if_neg (by simp only [List.length_append, BigEndian.encode_length, not_not]; omega), valid]

/-- No batch is read beyond its end. -/
theorem decodeStreamWriteBatch_inside : decodeStreamWriteBatch encoded ≠ .error rangeError := by
  intro call
  unfold decodeStreamWriteBatch at call
  split at call
  · exact streamProtocolError_ne (Except.error.inj call)
  rename_i long
  have header : 8 ≤ encoded.length := Nat.le_of_not_lt long
  simp only [DataView.getUint32, DataView.getUint16, bind, Except.bind,
    DataView.getUint_inside (show 0 + 4 ≤ encoded.length by omega),
    DataView.getUint_inside (show 4 + 2 ≤ encoded.length by omega),
    DataView.getUint_inside (show 6 + 2 ≤ encoded.length by omega)] at call
  split at call
  · exact streamProtocolError_ne (Except.error.inj call)
  split at call
  · exact streamProtocolError_ne (Except.error.inj call)
  split at call
  · rename_i thrown framed
    cases call
    rcases decodeChunkFrames_error framed with same | same | ⟨limit, member, same⟩
    · exact streamProtocolError_ne same.symm
    · exact streamProtocolError_ne same.symm
    · cases member
  split at call
  · exact streamProtocolError_ne (Except.error.inj call)
  split at call
  · rename_i thrown invalid
    cases call
    obtain ⟨message, same⟩ := validateStreamWriteChunks_error invalid
    exact streamProtocolError_ne same.symm
  · cases call

theorem requireSafeIndex_ok {value : Int} {field : String} :
    requireSafeIndex value field = .ok () ↔ -1 ≤ value ∧ value ≤ 0x7fffffff := by
  unfold requireSafeIndex
  split
  · exact ⟨nofun, fun _ => by omega⟩
  · exact ⟨fun _ => by omega, fun _ => rfl⟩

theorem requireSafeIndex_error {value : Int} {field : String} {thrown : Thrown}
    (invalid : requireSafeIndex value field = .error thrown) :
    ∃ message, thrown = streamProtocolError message := by
  unfold requireSafeIndex at invalid
  split at invalid
  · exact ⟨_, (Except.error.inj invalid).symm⟩
  · cases invalid

/-- An index of the protocol fits a signed field. -/
theorem toSigned_safeIndex {value : Int} {field : String} (safe : requireSafeIndex value field = .ok ()) :
    BigEndian.toSigned 4 (BigEndian.ofSigned 4 value) = value := by
  obtain ⟨low, high⟩ := requireSafeIndex_ok.mp safe
  exact BigEndian.toSigned_ofSigned (by omega) (by omega)

theorem ofSigned_lt {value : Int} : BigEndian.ofSigned 4 value < 256 ^ 4 := by
  unfold BigEndian.ofSigned
  omega

/-- An acknowledgement is read from exactly the bytes that it is written as, and its
offsets are consistent. -/
theorem decodeStreamWriteResult_iff :
    decodeStreamWriteResult encoded = .ok ack ↔
      encodeStreamWriteResult ack = .ok encoded ∧ ack.tailIndex = ack.startIndex + ack.count - 1 := by
  constructor
  · intro call
    unfold decodeStreamWriteResult at call
    split at call
    · cases call
    rename_i size
    have length : encoded.length = 16 := Decidable.not_not.mp size
    obtain ⟨magic, magicRead, call⟩ := bind_ok.mp call
    split at call
    · cases call
    rename_i magicIs
    cases Decidable.not_not.mp magicIs
    obtain ⟨version, versionRead, call⟩ := bind_ok.mp call
    split at call
    · cases call
    rename_i versionIs
    cases Decidable.not_not.mp versionIs
    obtain ⟨count, countRead, call⟩ := bind_ok.mp call
    split at call
    · cases call
    rename_i counted
    obtain ⟨startIndex, startRead, call⟩ := bind_ok.mp call
    obtain ⟨tailIndex, tailRead, call⟩ := bind_ok.mp call
    obtain ⟨⟨⟩, startSafe, call⟩ := bind_ok.mp call
    obtain ⟨⟨⟩, tailSafe, call⟩ := bind_ok.mp call
    split at call
    · cases call
    rename_i consistent
    cases call
    obtain ⟨start, startRaw, rfl⟩ := map_ok.mp startRead
    obtain ⟨tail, tailRaw, rfl⟩ := map_ok.mp tailRead
    refine ⟨?_, Decidable.not_not.mp consistent⟩
    have magicBytes := encode_getUint (by omega) magicRead
    have versionBytes := encode_getUint (by omega) versionRead
    have countBytes := encode_getUint (by omega) countRead
    have startBytes := encode_getUint (by omega) startRaw
    have tailBytes := encode_getUint (by omega) tailRaw
    unfold encodeStreamWriteResult
    simp only [startSafe, tailSafe, bind, Except.bind]
    rw [if_neg (by omega), BigEndian.ofSigned_toSigned (getUint_lt startRaw),
      BigEndian.ofSigned_toSigned (getUint_lt tailRaw), Int.toNat_natCast]
    refine congrArg Except.ok ?_
    calc BigEndian.encode 4 WRITE_ACK_MAGIC ++ (BigEndian.encode 2 PROTOCOL_VERSION ++
            (BigEndian.encode 2 count ++ (BigEndian.encode 4 start ++ BigEndian.encode 4 tail)))
        = BigEndian.encode 4 WRITE_ACK_MAGIC ++ (BigEndian.encode 2 PROTOCOL_VERSION ++
            (BigEndian.encode 2 count ++
              (BigEndian.encode 4 start ++ (BigEndian.encode 4 tail ++ encoded.drop 16)))) := by
          rw [List.drop_of_length_le (Nat.le_of_eq length), List.append_nil]
      _ = encoded := by
          rw [← tailBytes, ← startBytes, ← countBytes, ← versionBytes, ← magicBytes, List.drop_zero]
  · rintro ⟨call, consistent⟩
    obtain ⟨⟨⟩, startSafe, call⟩ := bind_ok.mp call
    obtain ⟨⟨⟩, tailSafe, call⟩ := bind_ok.mp call
    split at call
    · cases call
    rename_i counted
    cases call
    have magicRead := @DataView.getUint_encode 4 [] (BigEndian.encode 2 PROTOCOL_VERSION ++
      (BigEndian.encode 2 ack.count.toNat ++ (BigEndian.encode 4 (BigEndian.ofSigned 4 ack.startIndex) ++
        BigEndian.encode 4 (BigEndian.ofSigned 4 ack.tailIndex)))) WRITE_ACK_MAGIC (by decide)
    have versionRead := @DataView.getUint_encode 2 (BigEndian.encode 4 WRITE_ACK_MAGIC)
      (BigEndian.encode 2 ack.count.toNat ++ (BigEndian.encode 4 (BigEndian.ofSigned 4 ack.startIndex) ++
        BigEndian.encode 4 (BigEndian.ofSigned 4 ack.tailIndex))) PROTOCOL_VERSION (by decide)
    have countRead := @DataView.getUint_encode 2
      (BigEndian.encode 4 WRITE_ACK_MAGIC ++ BigEndian.encode 2 PROTOCOL_VERSION)
      (BigEndian.encode 4 (BigEndian.ofSigned 4 ack.startIndex) ++
        BigEndian.encode 4 (BigEndian.ofSigned 4 ack.tailIndex))
      ack.count.toNat (by unfold NEGOTIATED_STREAM_CHUNKS at counted; omega)
    have startRead := @DataView.getUint_encode 4
      (BigEndian.encode 4 WRITE_ACK_MAGIC ++
        (BigEndian.encode 2 PROTOCOL_VERSION ++ BigEndian.encode 2 ack.count.toNat))
      (BigEndian.encode 4 (BigEndian.ofSigned 4 ack.tailIndex)) (BigEndian.ofSigned 4 ack.startIndex) ofSigned_lt
    have tailRead := @DataView.getUint_encode 4
      (BigEndian.encode 4 WRITE_ACK_MAGIC ++ (BigEndian.encode 2 PROTOCOL_VERSION ++
        (BigEndian.encode 2 ack.count.toNat ++ BigEndian.encode 4 (BigEndian.ofSigned 4 ack.startIndex))))
      [] (BigEndian.ofSigned 4 ack.tailIndex) ofSigned_lt
    simp only [List.append_assoc, List.append_nil, List.nil_append, List.length_append, BigEndian.encode_length,
      List.length_nil] at magicRead versionRead countRead startRead tailRead
    unfold decodeStreamWriteResult
    rw [if_neg (by simp only [List.length_append, BigEndian.encode_length, WRITE_ACK_BYTES]; omega)]
    simp only [DataView.getUint32, DataView.getUint16, DataView.getInt32, magicRead, versionRead,
      countRead, startRead,
      tailRead, bind, Except.bind, Except.map, ne_eq, not_true_eq_false, if_false, toSigned_safeIndex startSafe,
      toSigned_safeIndex tailSafe, startSafe, tailSafe]
    rw [if_neg (by omega)]
    have kept : (ack.count.toNat : Int) = ack.count := Int.toNat_of_nonneg (by omega)
    rw [kept, if_neg (not_not.mpr consistent)]

/-- No acknowledgement is read beyond its end. -/
theorem decodeStreamWriteResult_inside : decodeStreamWriteResult encoded ≠ .error rangeError := by
  intro call
  unfold decodeStreamWriteResult at call
  split at call
  · exact streamProtocolError_ne (Except.error.inj call)
  rename_i size
  have length : encoded.length = 16 := Decidable.not_not.mp size
  simp only [DataView.getUint32, DataView.getUint16, DataView.getInt32, bind, Except.bind, Except.map,
    DataView.getUint_inside (show 0 + 4 ≤ encoded.length by omega),
    DataView.getUint_inside (show 4 + 2 ≤ encoded.length by omega),
    DataView.getUint_inside (show 6 + 2 ≤ encoded.length by omega),
    DataView.getUint_inside (show 8 + 4 ≤ encoded.length by omega),
    DataView.getUint_inside (show 12 + 4 ≤ encoded.length by omega)] at call
  split at call
  · exact streamProtocolError_ne (Except.error.inj call)
  split at call
  · exact streamProtocolError_ne (Except.error.inj call)
  split at call
  · exact streamProtocolError_ne (Except.error.inj call)
  split at call
  · rename_i thrown unsafeStart
    cases call
    obtain ⟨message, same⟩ := requireSafeIndex_error unsafeStart
    exact streamProtocolError_ne same.symm
  split at call
  · rename_i thrown unsafeTail
    cases call
    obtain ⟨message, same⟩ := requireSafeIndex_error unsafeTail
    exact streamProtocolError_ne same.symm
  split at call
  · exact streamProtocolError_ne (Except.error.inj call)
  · cases call

/-- An acknowledgement within the range of the protocol is written. -/
theorem encodeStreamWriteResult_ok (startSafe : requireSafeIndex ack.startIndex "startIndex" = .ok ())
    (tailSafe : requireSafeIndex ack.tailIndex "tailIndex" = .ok ()) (counted : 1 ≤ ack.count)
    (few : ack.count ≤ NEGOTIATED_STREAM_CHUNKS) :
    encodeStreamWriteResult ack =
      .ok (BigEndian.encode 4 WRITE_ACK_MAGIC ++ (BigEndian.encode 2 PROTOCOL_VERSION ++
      (BigEndian.encode 2 ack.count.toNat ++ (BigEndian.encode 4 (BigEndian.ofSigned 4 ack.startIndex) ++
        BigEndian.encode 4 (BigEndian.ofSigned 4 ack.tailIndex))))) := by
  unfold encodeStreamWriteResult
  simp only [startSafe, tailSafe, bind, Except.bind]
  exact if_neg (by omega)

variable {stored : Option Bytes} {start : Nat} {size : SegmentSize}

/-- A write of a stream is acknowledged within the range of the protocol. -/
theorem encodeStreamWriteResult_writeChunks {newLayout : Option Nat} {runId : String} {store after : StreamStore}
    {result : StreamWriteResult} (call : writeChunks newLayout runId chunks store = .ok (result, after)) :
    ∃ encoded, encodeStreamWriteResult result.ack = .ok encoded ∧
      decodeStreamWriteResult encoded = .ok result.ack := by
  obtain ⟨total, metadata, next, valid, -, -, counted, bounded, rfl, -⟩ := writeChunks_ok call
  obtain ⟨filled, few⟩ := validateStreamWriteChunks_count valid
  have count : next.count = metadata.count + chunks.length := by rw [counted]
  unfold MAX_STREAM_INDEX at bounded
  have startSafe := (@requireSafeIndex_ok (metadata.count : Int) "startIndex").mpr ⟨by omega, by omega⟩
  have tailSafe := (@requireSafeIndex_ok ((next.count - 1 : Nat) : Int) "tailIndex").mpr ⟨by omega, by omega⟩
  have encoded := @encodeStreamWriteResult_ok ⟨metadata.count, chunks.length, (next.count - 1 : Nat)⟩
    startSafe tailSafe (by dsimp only; omega) (by dsimp only; omega)
  refine ⟨_, encoded, decodeStreamWriteResult_iff.mpr ⟨encoded, ?_⟩⟩
  dsimp only [StreamWriteResult.ack]
  omega

/-! Stored segments. -/

theorem uint32_encode {value : Nat} : uint32 value = BigEndian.encode 4 value := by
  simp only [uint32, BigEndian.encode, List.map_cons, List.map_nil, List.nil_append, List.cons_append,
    Nat.div_div_eq_div_mul]

theorem getUint32_view {value : Bytes} {offset : Nat} (inside : offset + 4 ≤ value.length) :
    DataView.getUint32 value offset = .ok (StreamDO.getUint32 value offset) :=
  DataView.getUint_inside inside

theorem drop_uint32 {value : Bytes} {offset : Nat} (inside : offset + 4 ≤ value.length) :
    value.drop offset = uint32 (StreamDO.getUint32 value offset) ++ value.drop (offset + 4) := by
  rw [uint32_encode]
  exact encode_getUint inside (getUint32_view inside)

theorem getUint32_lt {value : Bytes} {offset : Nat} (inside : offset + 4 ≤ value.length) :
    StreamDO.getUint32 value offset < 4294967296 :=
  getUint_lt (getUint32_view inside)

theorem decodeChunks_view {value : Bytes} {remaining index offset : Nat}
    (inside : 4 + 4 * (index + remaining) ≤ value.length) :
    decodeChunksView value start remaining index offset = decodeChunks value start remaining index offset := by
  induction remaining generalizing index offset with
  | zero => rfl
  | succ remaining ih =>
    rw [decodeChunksView, decodeChunks, getUint32_view (by omega)]
    simp only [bind, Except.bind]
    rw [@ih (index + 1) _ (by omega)]

/-- No segment is read beyond its end. -/
theorem decodeSegmentView_eq : decodeSegmentView stored start size = decodeSegment stored start size := by
  unfold decodeSegmentView decodeSegment
  cases found : stored.filter (4 ≤ ·.length) with
  | none => rfl
  | some value =>
    have long : 4 ≤ value.length := of_decide_eq_true (Option.filter_eq_some_iff.mp found).2
    simp only [getUint32_view (show 0 + 4 ≤ value.length by omega), bind, Except.bind]
    split
    · rfl
    · rename_i consistent
      rw [decodeChunks_view (by omega)]

/-- What is read of a segment stands in its header and behind it. -/
theorem decodeChunks_ok {value : Bytes} {remaining index offset last : Nat}
    (inside : 4 + 4 * (index + remaining) ≤ value.length) (payload : offset ≤ value.length)
    (call : decodeChunks value start remaining index offset = .ok (chunks, last)) :
    chunks.length = remaining ∧ (∀ chunk ∈ chunks, chunk.length < 4294967296) ∧ last ≤ value.length ∧
      value.drop (4 + 4 * index) = segmentLengths chunks ++ value.drop (4 + 4 * (index + remaining)) ∧
      value.drop offset = chunks.flatten ++ value.drop last ∧ last = offset + byteLength chunks := by
  induction remaining generalizing index offset chunks with
  | zero =>
    cases call
    exact ⟨rfl, nofun, payload, rfl, rfl, rfl⟩
  | succ remaining ih =>
    rw [decodeChunks] at call
    dsimp only at call
    split at call
    · cases call
    rename_i data
    obtain ⟨⟨rest, last'⟩, later, call⟩ := bind_ok.mp call
    cases call
    have bounded := Nat.le_of_not_lt data
    have taken := BigEndian.slice_length bounded
    have small := @getUint32_lt value (4 + 4 * index) (by omega)
    have entry := @drop_uint32 value (4 + 4 * index) (by omega)
    obtain ⟨counted, fits, ends, lengths, payloads, same⟩ := ih (by omega) bounded later
    generalize StreamDO.getUint32 value (4 + 4 * index) = length at *
    change (List.take length (List.drop offset value)).length = length at taken
    refine ⟨congrArg (· + 1) counted, ?_, ends, ?_, ?_, ?_⟩
    · intro chunk member
      rcases List.mem_cons.mp member with rfl | member
      · rwa [taken]
      · exact fits chunk member
    · calc value.drop (4 + 4 * index)
          = uint32 length ++ value.drop (4 + 4 * (index + 1)) := entry
        _ = _ := by
            rw [lengths, segmentLengths, segmentLengths, List.flatMap_cons, List.append_assoc,
              show index + 1 + remaining = index + (remaining + 1) by omega]
            exact congrArg (uint32 · ++ _) taken.symm
    · calc value.drop offset
          = BigEndian.slice value offset length ++ value.drop (offset + length) := BigEndian.drop_slice
        _ = _ := by
            rw [payloads, List.flatten_cons, List.append_assoc]
            rfl
    · rw [same, byteLength_cons, taken, Nat.add_assoc]

theorem decodeChunks_error {value : Bytes} {remaining index offset : Nat} {thrown : Thrown}
    (call : decodeChunks value start remaining index offset = .error thrown) :
    thrown = .error s!"Invalid persisted stream segment at index {start}" := by
  induction remaining generalizing index offset with
  | zero => cases call
  | succ remaining ih =>
    rw [decodeChunks] at call
    dsimp only [bind, Except.bind] at call
    split at call
    · exact (Except.error.inj call).symm
    split at call
    · rename_i later
      cases call
      exact ih later
    · cases call

theorem decodeSegment_error {thrown : Thrown} (call : decodeSegment stored start size = .error thrown) :
    thrown = .error s!"Invalid persisted stream segment at index {start}" := by
  unfold decodeSegment at call
  split at call
  · exact (Except.error.inj call).symm
  dsimp only [bind, Except.bind] at call
  split at call
  · exact (Except.error.inj call).symm
  split at call
  · rename_i decoded
    cases call
    exact decodeChunks_error decoded
  split at call
  · exact (Except.error.inj call).symm
  · cases call

theorem decodeSegmentView_inside : decodeSegmentView stored start size ≠ .error rangeError := by
  intro call
  rw [decodeSegmentView_eq] at call
  have texts := congrArg String.toList (Thrown.error.inj (decodeSegment_error call))
  have heads := congrArg List.head? texts
  simp [toString] at heads

/-- A segment is read from exactly the bytes that it is packed as, where its lengths fit
their fields. -/
theorem decodeSegment_iff {value : Bytes} :
    decodeSegment (some value) start size = .ok chunks ↔
      value = encodeSegment chunks ∧ size = ⟨chunks.length, byteLength chunks⟩ ∧
        chunks.length < 4294967296 ∧ ∀ chunk ∈ chunks, chunk.length < 4294967296 := by
  constructor
  · intro call
    unfold decodeSegment at call
    split at call
    · cases call
    rename_i found
    obtain ⟨same, long⟩ := Option.filter_eq_some_iff.mp found
    cases same
    have long : 4 ≤ value.length := of_decide_eq_true long
    dsimp only at call
    split at call
    · cases call
    rename_i consistent
    obtain ⟨⟨read, offset⟩, decoded, call⟩ := bind_ok.mp call
    dsimp only at call
    split at call
    · cases call
    rename_i whole
    cases call
    cases Decidable.not_not.mp whole
    have few := @getUint32_lt value 0 (by omega)
    have head := @drop_uint32 value 0 (by omega)
    generalize StreamDO.getUint32 value 0 = count at *
    obtain ⟨counted, small, -, lengths, payloads, total⟩ := decodeChunks_ok (by omega) (by omega) decoded
    have counts : count = size.count := by omega
    have bytes : size.bytes = byteLength chunks := by omega
    refine ⟨?_, ?_, counted ▸ few, small⟩
    · calc value
          = uint32 count ++ value.drop 4 := head
        _ = uint32 chunks.length ++ (segmentLengths chunks ++ value.drop (4 + 4 * count)) := by
            rw [counted, show value.drop 4 = _ from lengths, Nat.zero_add]
        _ = encodeSegment chunks := by
            rw [payloads, List.drop_length, List.append_nil, encodeSegment_eq]
    · rw [← bytes, counted, counts]
  · rintro ⟨rfl, rfl, counted, small⟩
    exact decodeSegment_encodeSegment counted small

/-- What is read of the frames of writes and acknowledgements and of stored segments is
what they are written as, and no read of them leaves their bytes. -/
theorem streamFrames_canonical :
    (∀ (encoded : Bytes) (chunks : List Bytes),
      decodeStreamWriteBatch encoded = .ok chunks ↔
        (∃ total, validateStreamWriteChunks chunks = .ok total) ∧ encodeStreamWriteBatch chunks = .ok encoded) ∧
    (∀ (newLayout : Option Nat) (runId : String) (chunks : List Bytes) (store after : StreamStore)
        (result : StreamWriteResult), writeChunks newLayout runId chunks store = .ok (result, after) →
      ∃ encoded, encodeStreamWriteResult result.ack = .ok encoded ∧
        decodeStreamWriteResult encoded = .ok result.ack) ∧
    (∀ (encoded : Bytes) (ack : StreamWriteAck), decodeStreamWriteResult encoded = .ok ack →
      encodeStreamWriteResult ack = .ok encoded ∧ ack.tailIndex = ack.startIndex + ack.count - 1) ∧
    (∀ (value : Bytes) (chunks : List Bytes) (start : Nat) (size : SegmentSize),
      chunks.length < 2 ^ 32 → (∀ chunk ∈ chunks, chunk.length < 2 ^ 32) →
      (decodeSegment (some value) start size = .ok chunks ↔
        value = encodeSegment chunks ∧ size = ⟨chunks.length, byteLength chunks⟩)) ∧
    (∀ (value : Bytes) (chunks : List Bytes) (start : Nat) (size : SegmentSize),
      decodeSegment (some value) start size = .ok chunks →
        chunks.length < 2 ^ 32 ∧ ∀ chunk ∈ chunks, chunk.length < 2 ^ 32) ∧
    (∀ encoded : Bytes, decodeStreamWriteBatch encoded ≠ .error rangeError ∧
      decodeStreamWriteResult encoded ≠ .error rangeError) ∧
    (∀ (stored : Option Bytes) (start : Nat) (size : SegmentSize),
      decodeSegmentView stored start size = decodeSegment stored start size ∧
        decodeSegmentView stored start size ≠ .error rangeError) := by
  refine ⟨fun encoded chunks => ?_, fun newLayout runId chunks store after result =>
    encodeStreamWriteResult_writeChunks,
    fun encoded ack => decodeStreamWriteResult_iff.mp, fun value chunks start size counted small => ?_,
    fun value chunks start size call => (decodeSegment_iff.mp call).2.2,
    fun encoded => ⟨decodeStreamWriteBatch_inside, decodeStreamWriteResult_inside⟩,
    fun stored start size => ⟨decodeSegmentView_eq, decodeSegmentView_inside⟩⟩
  · rw [decodeStreamWriteBatch_iff]
    refine ⟨fun call => ⟨?_, call⟩, And.right⟩
    obtain ⟨total, valid, -⟩ := bind_ok.mp call
    exact ⟨total, valid⟩
  · exact decodeSegment_iff.trans ⟨fun packed => ⟨packed.1, packed.2.1⟩, fun packed =>
      ⟨packed.1, packed.2, counted, small⟩⟩

/-- The length of a chunk of 4 GiB wraps in its field, so that its segment is not read. -/
theorem decodeSegment_wrapped :
    ¬ ∀ (value : Bytes) (chunks : List Bytes) (start : Nat) (size : SegmentSize),
      decodeSegment (some value) start size = .ok chunks ↔
        value = encodeSegment chunks ∧ size = ⟨chunks.length, byteLength chunks⟩ := by
  intro canonical
  have read := (canonical _ [List.replicate (2 ^ 32) 0] 0 _).mpr ⟨rfl, rfl⟩
  have small := (decodeSegment_iff.mp read).2.2.2 (List.replicate (2 ^ 32) 0) (List.mem_cons_self ..)
  rw [List.length_replicate] at small
  exact absurd small (by decide)

theorem streamFrames_canonical_closed :
    decodeSegment (some (encodeSegment [[7], [8, 9]])) 0 ⟨2, 3⟩ = .ok [[7], [8, 9]] ∧
      decodeStreamWriteResult [0x57, 0x43, 0x53, 0x41, 0, 1, 0, 2, 0, 0, 0, 5, 0, 0, 0, 6] = .ok ⟨5, 2, 6⟩ ∧
      encodeStreamWriteResult ⟨5, 2, 6⟩ = .ok [0x57, 0x43, 0x53, 0x41, 0, 1, 0, 2, 0, 0, 0, 5, 0, 0, 0, 6] :=
  ⟨(streamFrames_canonical.2.2.2.1 _ [[7], [8, 9]] 0 ⟨2, 3⟩ (by decide) (by decide)).mpr ⟨rfl, rfl⟩, by decide,
    (streamFrames_canonical.2.2.1 _ ⟨5, 2, 6⟩ (by decide)).1⟩

end CelldWorld
