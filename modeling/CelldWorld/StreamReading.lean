import CelldWorld.StreamRows

namespace CelldWorld

open PackedRows

/-- The first of some chunks that fit in a read after the `bytes` already in it. -/
def fitting (maxBytes : Nat) : List Bytes → Nat → List Bytes
  | [], _ => []
  | chunk :: chunks, bytes =>
    if maxBytes < bytes + chunk.length then [] else chunk :: fitting maxBytes chunks (bytes + chunk.length)

theorem fitting_isPrefix {maxBytes bytes : Nat} {chunks : List Bytes} :
    fitting maxBytes chunks bytes <+: chunks := by
  induction chunks generalizing bytes with
  | nil => exact List.prefix_rfl
  | cons chunk chunks ih =>
    unfold fitting
    split
    · exact List.nil_prefix
    · exact (List.prefix_cons_inj chunk).mpr ih

theorem fitting_bytes {maxBytes bytes : Nat} {chunks : List Bytes} (within : bytes ≤ maxBytes) :
    bytes + byteLength (fitting maxBytes chunks bytes) ≤ maxBytes := by
  induction chunks generalizing bytes with
  | nil => exact within
  | cons chunk chunks ih =>
    unfold fitting
    split
    · exact within
    · rename_i fits
      have later := @ih (bytes + chunk.length) (Nat.le_of_not_lt fits)
      rw [byteLength_cons]
      omega

/-- A read takes the rest of the chunks only after all of the first ones. -/
theorem fitting_append {maxBytes bytes : Nat} {chunks more : List Bytes} :
    fitting maxBytes (chunks ++ more) bytes =
      if fitting maxBytes chunks bytes = chunks then chunks ++ fitting maxBytes more (bytes + byteLength chunks)
      else fitting maxBytes chunks bytes := by
  induction chunks generalizing bytes with
  | nil => simp [fitting]
  | cons chunk chunks ih =>
    simp only [List.cons_append, fitting]
    split
    · simp
    · rw [ih, byteLength_cons, ← Nat.add_assoc]
      by_cases whole : fitting maxBytes chunks (bytes + chunk.length) = chunks
      · rw [if_pos whole, if_pos (by rw [whole])]
      · rw [if_neg whole, if_neg fun same => whole (List.cons.inj same).2]

theorem mapM_map_ok {α β γ : Type} {body : β → Except Thrown γ} {input : α → β} {answer : α → γ} {list : List α}
    (each : ∀ item ∈ list, body (input item) = .ok (answer item)) :
    (list.map input).mapM body = .ok (list.map answer) := by
  induction list with
  | nil => rfl
  | cons item list ih =>
    rw [List.map_cons, List.mapM_cons, each item (.head _), ih fun later member => each later (.tail _ member)]
    rfl

namespace StreamDO

@[simp] theorem uint32_length (value : Nat) : (uint32 value).length = 4 := rfl

theorem getUint32_uint32 {value : Nat} {before after : Bytes} (small : value < 4294967296) :
    getUint32 (before ++ (uint32 value ++ after)) before.length = value := by
  rw [getUint32, List.drop_left]
  simp only [uint32, List.map_cons, List.map_nil, List.cons_append, List.nil_append, List.take_succ_cons,
    List.take_zero, List.foldl_cons, List.foldl_nil, UInt8.toNat_ofNat']
  omega

/-- The lengths in the header of a segment. -/
def segmentLengths (chunks : List Bytes) : Bytes := chunks.flatMap fun chunk => uint32 chunk.length

theorem segmentLengths_length {chunks : List Bytes} : (segmentLengths chunks).length = 4 * chunks.length := by
  induction chunks with
  | nil => rfl
  | cons chunk chunks ih =>
    simp only [segmentLengths, List.flatMap_cons, List.length_append, uint32_length, List.length_cons] at ih ⊢
    omega

theorem encodeSegment_eq {chunks : List Bytes} :
    encodeSegment chunks = uint32 chunks.length ++ (segmentLengths chunks ++ chunks.flatten) := by
  rw [encodeSegment, segmentLengths, List.append_assoc]

theorem encodeSegment_length {chunks : List Bytes} :
    (encodeSegment chunks).length = 4 + 4 * chunks.length + byteLength chunks := by
  rw [encodeSegment_eq, List.length_append, List.length_append, segmentLengths_length, uint32_length, byteLength,
    List.length_flatten, Nat.add_assoc]

/-- The length of a chunk is read from its entry in the header. -/
theorem encodeSegment_entry {done rest : List Bytes} {chunk : Bytes} (small : chunk.length < 4294967296) :
    getUint32 (encodeSegment (done ++ chunk :: rest)) (4 + 4 * done.length) = chunk.length := by
  have split : encodeSegment (done ++ chunk :: rest) =
      (uint32 (done ++ chunk :: rest).length ++ segmentLengths done) ++
        (uint32 chunk.length ++ (segmentLengths rest ++ (done ++ chunk :: rest).flatten)) := by
    rw [encodeSegment_eq]
    simp only [segmentLengths, List.flatMap_append, List.flatMap_cons, List.append_assoc]
  have position : 4 + 4 * done.length =
      (uint32 (done ++ chunk :: rest).length ++ segmentLengths done).length := by
    rw [List.length_append, segmentLengths_length, uint32_length]
  rw [split, position, getUint32_uint32 small]

/-- The payload of a chunk stands where those before it end. -/
theorem encodeSegment_payload {done rest : List Bytes} {chunk : Bytes} :
    ((encodeSegment (done ++ chunk :: rest)).drop
      (4 + 4 * (done ++ chunk :: rest).length + byteLength done)).take chunk.length = chunk := by
  have split : encodeSegment (done ++ chunk :: rest) =
      (uint32 (done ++ chunk :: rest).length ++ (segmentLengths (done ++ chunk :: rest) ++ done.flatten)) ++
        (chunk ++ rest.flatten) := by
    rw [encodeSegment_eq]
    simp only [List.flatten_append, List.flatten_cons, List.append_assoc]
  have position : 4 + 4 * (done ++ chunk :: rest).length + byteLength done =
      (uint32 (done ++ chunk :: rest).length ++
        (segmentLengths (done ++ chunk :: rest) ++ done.flatten)).length := by
    simp only [List.length_append, segmentLengths_length, uint32_length, byteLength, List.length_flatten]
    omega
  rw [split, position, List.drop_left, List.take_left]

theorem decodeChunks_encodeSegment {start : Nat} {done rest : List Bytes}
    (small : ∀ chunk ∈ rest, chunk.length < 4294967296) :
    decodeChunks (encodeSegment (done ++ rest)) start rest.length done.length
        (4 + 4 * (done ++ rest).length + byteLength done) =
      .ok (rest, (encodeSegment (done ++ rest)).length) := by
  induction rest generalizing done with
  | nil =>
    simp only [List.length_nil, decodeChunks, List.append_nil, encodeSegment_length]
  | cons chunk rest ih =>
    have total : byteLength (done ++ chunk :: rest) = byteLength done + (chunk.length + byteLength rest) := by
      rw [byteLength_append, byteLength_cons]
    have later := @ih (done ++ [chunk]) fun other member => small other (.tail _ member)
    have entries : (done ++ [chunk]).length = done.length + 1 := List.length_append
    have bytes : byteLength (done ++ [chunk]) = byteLength done + chunk.length := by
      rw [byteLength_append, byteLength_cons, byteLength_nil, Nat.add_zero]
    rw [entries, bytes, List.append_assoc, List.singleton_append, ← Nat.add_assoc] at later
    simp only [List.length_cons, decodeChunks]
    rw [encodeSegment_entry (small chunk (.head _)), if_neg (by rw [encodeSegment_length, total]; omega), later,
      encodeSegment_payload]
    rfl

/-- A segment decodes to the chunks that it was packed from. -/
theorem decodeSegment_encodeSegment {start : Nat} {chunks : List Bytes} (counted : chunks.length < 4294967296)
    (small : ∀ chunk ∈ chunks, chunk.length < 4294967296) :
    decodeSegment (some (encodeSegment chunks)) start ⟨chunks.length, byteLength chunks⟩ = .ok chunks := by
  have long : 4 ≤ (encodeSegment chunks).length := by
    rw [encodeSegment_length]
    omega
  have count : getUint32 (encodeSegment chunks) 0 = chunks.length := by
    have head := @getUint32_uint32 chunks.length [] (segmentLengths chunks ++ chunks.flatten) counted
    rwa [List.nil_append, ← encodeSegment_eq] at head
  have decoded := @decodeChunks_encodeSegment start [] chunks small
  rw [List.nil_append, List.length_nil, byteLength_nil, Nat.add_zero] at decoded
  unfold decodeSegment
  rw [Option.filter_some_pos (by simpa using long)]
  simp only [count, encodeSegment_length, ne_eq, not_true_eq_false, or_self, if_false, decoded]
  simp [bind, Except.bind]

theorem selectSizes_single {store : StreamStore} {before wanted rest : List Bytes} {maxBytes bytes : Nat}
    (single : store.Single (before ++ (wanted ++ rest)))
    (small : ∀ chunk ∈ wanted, chunk.length ≤ MAX_STREAM_CHUNK_BYTES) :
    selectSizes store maxBytes (List.range' before.length wanted.length) bytes =
      .ok (((fitting maxBytes wanted bytes).zipIdx before.length).map fun (chunk, index) =>
        (index, chunk.length)) := by
  induction wanted generalizing before bytes with
  | nil => rfl
  | cons chunk wanted ih =>
    have stored : store.chunkSizes[before.length]? = some chunk.length := by
      rw [single.sizes]
      simp
    have size : validateChunkSize chunk.length before.length = .ok chunk.length :=
      if_neg (Nat.not_lt_of_le (small chunk (.head _)))
    simp only [List.length_cons, List.range'_succ, selectSizes, stored, size, bind, Except.bind, fitting]
    split
    · rfl
    · have later := @ih (before ++ [chunk]) (bytes + chunk.length) (by simpa using single)
        fun other member => small other (.tail _ member)
      have next : (before ++ [chunk]).length = before.length + 1 := List.length_append
      rw [next] at later
      rw [later]
      rfl

/-- A stream of chunk rows reads the first chunks of the range that fit. -/
theorem readChunkRows_single {store : StreamStore} {written : List Bytes} {startIndex available maxBytes : Nat}
    (single : store.Single written) (small : ∀ chunk ∈ written, chunk.length ≤ MAX_STREAM_CHUNK_BYTES)
    (inside : startIndex + available ≤ written.length) :
    readChunkRows startIndex available maxBytes store =
      .ok (fitting maxBytes ((written.drop startIndex).take available) 0) := by
  set wanted := (written.drop startIndex).take available with range
  have parts : written = written.take startIndex ++ (wanted ++ (written.drop startIndex).drop available) := by
    rw [range, List.take_append_drop, List.take_append_drop]
  have start : (written.take startIndex).length = startIndex := by
    rw [List.length_take]
    omega
  have length : wanted.length = available := by
    rw [range, List.length_take, List.length_drop]
    omega
  have selected := @selectSizes_single store (written.take startIndex) wanted _ maxBytes 0 (parts ▸ single)
    fun chunk member => small chunk (List.mem_of_mem_drop (List.mem_of_mem_take member))
  rw [start, length] at selected
  unfold readChunkRows
  rw [selected]
  have rows : ∀ item ∈ (fitting maxBytes wanted 0).zipIdx startIndex,
      readChunkRow store (item.2, item.1.length) = .ok item.1 := by
    rintro ⟨chunk, index⟩ member
    obtain ⟨lower, upper, found⟩ := List.mem_zipIdx member
    obtain ⟨rest, whole⟩ := @fitting_isPrefix maxBytes 0 wanted
    have stored : store.chunks[index]? = some chunk := by
      have position : index = (written.take startIndex).length + (index - startIndex) := by omega
      rw [single.chunks, parts, position, List.getElem?_append_right (by omega), Nat.add_sub_cancel_left,
        List.getElem?_append_left (by rw [← whole, List.length_append]; omega), ← whole,
        List.getElem?_append_left (by omega), found]
      exact List.getElem?_eq_getElem _
    simp only [readChunkRow, stored, ne_eq, not_true_eq_false, if_false]
  have read := mapM_map_ok rows
  rw [List.zipIdx_map_fst] at read
  exact read

end StreamDO

/-- The rows are those of segments that a read decodes. -/
structure SegmentRows (store : StreamStore) (rows : List (Nat × List Bytes)) : Prop where
  stored : ∀ row ∈ rows, store.segments[row.1]? = some (StreamDO.encodeSegment row.2)
  keyed : ∀ row ∈ rows, row.1 + row.2.length ≤ MAX_STREAM_INDEX
  small : ∀ row ∈ rows, ∀ chunk ∈ row.2, chunk.length ≤ MAX_STREAM_CHUNK_BYTES

theorem SegmentRows.of_subset {store : StreamStore} {rows few : List (Nat × List Bytes)}
    (segments : SegmentRows store rows) (subset : ∀ row ∈ few, row ∈ rows) : SegmentRows store few where
  stored row member := segments.stored row (subset row member)
  keyed row member := segments.keyed row (subset row member)
  small row member := segments.small row (subset row member)

theorem byteLength_le {chunks : List Bytes} (small : ∀ chunk ∈ chunks, chunk.length ≤ MAX_STREAM_CHUNK_BYTES) :
    byteLength chunks ≤ chunks.length * MAX_STREAM_CHUNK_BYTES := by
  induction chunks with
  | nil => exact Nat.zero_le _
  | cons chunk chunks ih =>
    have first := small chunk (.head _)
    have rest := ih fun other member => small other (.tail _ member)
    rw [byteLength_cons, List.length_cons, Nat.succ_mul]
    omega

namespace StreamDO
variable {store : StreamStore} {rows : List (Nat × List Bytes)}

theorem planSegment_sizeRow {row : Nat × List Bytes} (segments : SegmentRows store [row]) (filled : row.2 ≠ []) :
    planSegment (sizeRow row) = .ok (sizeRow row) := by
  have keyed := segments.keyed row (.head _)
  have bytes := byteLength_le (segments.small row (.head _))
  have positive := List.length_pos_of_ne_nil filled
  simp only [MAX_STREAM_INDEX, MAX_STREAM_CHUNK_BYTES] at keyed bytes
  have key : startFromSegmentKey "segsize:" row.1 = .ok row.1 := if_neg (by rw [MAX_STREAM_INDEX]; omega)
  have size : validateSegmentSize (sizeRow row).2 row.1 = .ok (sizeRow row).2 := by
    refine if_neg ?_
    simp only [sizeRow, MAX_SAFE_INTEGER]
    omega
  simp only [planSegment, sizeRow, key, bind, Except.bind]
  simp only [sizeRow] at size
  rw [size]

/-- The rows that a read plans cover its range. -/
theorem checkCoverage_contiguous {position : Nat} (contiguous : Contiguous position rows) :
    checkCoverage false position (rows.map sizeRow) = .ok (position + (items rows).length) := by
  induction rows generalizing position with
  | nil => rfl
  | cons row rows ih =>
    obtain ⟨key, packed⟩ := row
    obtain ⟨rfl, filled, rest⟩ := contiguous
    have positive := List.length_pos_of_ne_nil filled
    simp only [List.map_cons, sizeRow, checkCoverage, items_cons, List.length_append]
    rw [if_neg (Nat.lt_irrefl _), if_neg (by simp), if_neg (by omega), ← Nat.add_assoc]
    exact ih rest

theorem selectSegments_isPrefix {maxBytes bytes : Nat} {row : Nat × List Bytes} :
    ∃ kept, kept <+: rows ∧
      selectSegments maxBytes ((row :: rows).map sizeRow) bytes = (row :: kept).map sizeRow := by
  induction rows generalizing bytes row with
  | nil => exact ⟨[], List.prefix_rfl, by simp [selectSegments]⟩
  | cons next rows ih =>
    rw [List.map_cons, selectSegments]
    split
    · exact ⟨[], List.nil_prefix, rfl⟩
    · obtain ⟨kept, within, selected⟩ := @ih (bytes + (sizeRow row).2.bytes) next
      exact ⟨next :: kept, (List.prefix_cons_inj next).mpr within, by rw [selected]; rfl⟩

theorem takeChunks_eq {endIndex maxBytes expected bytes : Nat} {chunks : List Bytes} :
    takeChunks endIndex maxBytes chunks expected bytes =
      (fitting maxBytes (chunks.take (endIndex - expected)) bytes,
        bytes + byteLength (fitting maxBytes (chunks.take (endIndex - expected)) bytes),
        decide (fitting maxBytes (chunks.take (endIndex - expected)) bytes ≠ chunks)) := by
  induction chunks generalizing expected bytes with
  | nil => simp [takeChunks, fitting]
  | cons chunk chunks ih =>
    unfold takeChunks
    rcases Nat.lt_or_ge expected endIndex with before | reached
    · have range : endIndex - expected = endIndex - (expected + 1) + 1 := by omega
      rw [range, List.take_succ_cons, fitting]
      by_cases full : maxBytes < bytes + chunk.length
      · rw [if_pos (.inr full), if_pos full]
        simp
      · rw [if_neg (by omega), if_neg full, ih]
        simp [byteLength_cons, Nat.add_assoc]
    · have range : endIndex - expected = 0 := by omega
      rw [if_pos (.inl reached), range]
      simp [fitting]

/-- Contiguous segments load as the first of their chunks that are in range and fit. -/
theorem loadSegments_eq {endIndex maxBytes position expected bytes : Nat} (segments : SegmentRows store rows)
    (contiguous : Contiguous position rows) (started : position ≤ expected)
    (inside : ∀ row ∈ rows.head?, expected ≤ row.1 + row.2.length) :
    loadSegments endIndex maxBytes store (rows.map sizeRow) expected bytes =
      .ok (fitting maxBytes (((items rows).drop (expected - position)).take (endIndex - expected)) bytes) := by
  induction rows generalizing position expected bytes with
  | nil => simp [loadSegments, fitting]
  | cons row rows ih =>
    obtain ⟨key, packed⟩ := row
    obtain ⟨rfl, filled, rest⟩ := contiguous
    have within : expected ≤ key + packed.length := inside _ rfl
    have keyed := segments.keyed _ (.head _)
    simp only [MAX_STREAM_INDEX] at keyed
    have decoded : decodeSegment store.segments[key]? key (sizeRow (key, packed)).2 = .ok packed := by
      rw [segments.stored (key, packed) (.head _)]
      refine decodeSegment_encodeSegment (show packed.length < 4294967296 by omega) fun chunk member => ?_
      have small := segments.small _ (.head _) chunk member
      simp only [MAX_STREAM_CHUNK_BYTES] at small
      omega
    simp only [sizeRow] at decoded
    simp only [List.map_cons, sizeRow, loadSegments]
    rw [if_neg (by omega), decoded]
    simp only [bind, Except.bind, takeChunks_eq, items_cons]
    rw [List.drop_append_of_le_length (by omega), List.take_append, fitting_append]
    set chunks := packed.drop (expected - key) with remaining
    have length : chunks.length = key + packed.length - expected := by
      rw [remaining, List.length_drop]
      omega
    by_cases whole : fitting maxBytes (chunks.take (endIndex - expected)) bytes = chunks
    · have reached : chunks.take (endIndex - expected) = chunks := by
        have bound := (@fitting_isPrefix maxBytes bytes (chunks.take (endIndex - expected))).length_le
        rw [whole] at bound
        exact List.take_of_length_le (by rw [List.length_take] at bound; omega)
      rw [reached] at whole ⊢
      have next : expected + chunks.length = key + packed.length := by omega
      have later := @ih (key + packed.length) (key + packed.length) (bytes + byteLength chunks)
        (segments.of_subset fun row member => .tail _ member) rest (Nat.le_refl _) fun row member => by
          have lower := (rest.key_le (List.mem_of_mem_head? member)).1
          omega
      rw [Nat.sub_self, List.drop_zero] at later
      simp only [whole, ne_eq, not_true_eq_false, decide_false, Bool.false_eq_true, if_false,
        if_true, next, later]
      congr 4
      omega
    · have short : fitting maxBytes (chunks.take (endIndex - expected)) bytes =
        chunks.take (endIndex - expected) →
          (endIndex - expected) - chunks.length = 0 := by
        intro all
        rcases Nat.lt_or_ge (endIndex - expected) chunks.length with less | more
        · omega
        · exact absurd (all.trans (List.take_of_length_le more)) whole
      simp only [ne_eq, whole, not_false_eq_true, decide_true, if_true]
      split
      · rename_i all
        rw [short all, List.take_zero]
        simp [fitting, all]
      · rfl

theorem filter_sizeRow (listed : Nat → Prop) [DecidablePred listed] :
    (rows.map sizeRow).filter (fun row => listed row.1) = (rows.filter fun row => listed row.1).map sizeRow :=
  List.filter_map

/-- How the rows of a stream split around a read: the row that its first index is in, the rows
that start in its range, and those before and behind. -/
structure Around (startIndex available : Nat) (before : List (Nat × List Bytes)) (row : Nat × List Bytes)
    (kept rest : List (Nat × List Bytes)) : Prop where
  together : Contiguous row.1 (row :: kept)
  key : row.1 = (items before).length
  lower : row.1 ≤ startIndex
  upper : startIndex < row.1 + row.2.length
  covers : startIndex + available ≤ row.1 + (items (row :: kept)).length
  earlier : ∀ other ∈ before, other.1 < row.1
  later : ∀ other ∈ kept ++ rest, startIndex < other.1
  filtered : (kept ++ rest).filter (fun other => other.1 < startIndex + available) = kept

theorem packed_around {startIndex available : Nat} (packed : store.Packed rows) (positive : 0 < available)
    (inside : startIndex + available ≤ (items rows).length) :
    ∃ before row kept rest, rows = before ++ row :: (kept ++ rest) ∧
      Around startIndex available before row kept rest := by
  obtain ⟨before, row, after, rfl, key, lower, upper⟩ :=
    packed.contiguous.find (Nat.zero_le startIndex) (by omega)
  rw [Nat.zero_add] at key
  obtain ⟨first, contiguous⟩ := contiguous_append.mp packed.contiguous
  rw [Nat.zero_add, ← key] at contiguous
  have later : Contiguous (row.1 + row.2.length) after := contiguous.2.2
  obtain ⟨kept, rest, rfl, filtered, -, beyond⟩ := later.filter_lt (startIndex + available)
  have joined := contiguous_append.mp later
  have covers : startIndex + available ≤ row.1 + (items (row :: kept)).length := by
    rw [items_cons, List.length_append]
    cases rest with
    | nil =>
      simp only [items_append, items_cons, List.append_nil, List.length_append] at inside
      omega
    | cons next rest =>
      have start : next.1 = row.1 + row.2.length + (items kept).length := joined.2.1
      have reached := beyond next (.head _)
      omega
  refine ⟨before, row, kept, rest, rfl, ⟨rfl, contiguous.2.1, joined.1⟩, key, lower, upper, covers,
    fun other member => ?_, fun other member => ?_, filtered⟩
  · have bound := first.key_le member
    have length := List.length_pos_of_ne_nil bound.2.2
    omega
  · have bound := (later.key_le member).1
    omega

namespace Around
variable {startIndex available : Nat} {before kept rest : List (Nat × List Bytes)} {row : Nat × List Bytes}

/-- The rows that start in the range. -/
theorem inRange (around : Around startIndex available before row kept rest) (positive : 0 < available) :
    (before ++ row :: (kept ++ rest)).filter
      (fun other => startIndex ≤ other.1 ∧ other.1 < startIndex + available) =
        if row.1 = startIndex then row :: kept else kept := by
  have lower := around.lower
  have none_before : before.filter (fun other => startIndex ≤ other.1 ∧ other.1 < startIndex + available) =
      [] := by
    refine List.filter_eq_nil_iff.mpr fun other member => ?_
    have bound := around.earlier other member
    simp only [decide_eq_true_eq]
    omega
  have all_after : (kept ++ rest).filter
      (fun other => startIndex ≤ other.1 ∧ other.1 < startIndex + available) = kept := by
    refine (List.filter_congr fun other member => ?_).trans around.filtered
    have bound := around.later other member
    simp only [decide_eq_decide, and_iff_right_iff_imp]
    omega
  rw [List.filter_append, none_before, List.nil_append, List.filter_cons, all_after]
  by_cases same : row.1 = startIndex
  · rw [if_pos same, if_pos (by simp only [decide_eq_true_eq]; omega)]
  · rw [if_neg same, if_neg (by simp only [decide_eq_true_eq]; omega)]

/-- Every row holds a chunk, so the range has no more rows than indexes. -/
theorem short (around : Around startIndex available before row kept rest) (positive : 0 < available) :
    (if row.1 = startIndex then row :: kept else kept).length ≤ available := by
  have lower := around.lower
  have upper := around.upper
  have below : ∀ other ∈ kept, other.1 < startIndex + available := by
    intro other member
    rw [← around.filtered] at member
    simpa using (List.mem_filter.mp member).2
  split
  · have below : ∀ other ∈ row :: kept, other.1 < startIndex + available := by
      intro other member
      rcases List.mem_cons.mp member with rfl | tail
      · exact Nat.lt_of_le_of_lt lower (Nat.lt_add_of_pos_right positive)
      · exact below other tail
    have bound := around.together.length_le below
    omega
  · have bound := Contiguous.length_le around.together.2.2 below
    omega

/-- The rows that start no later than the first index end with the one that it is in. -/
theorem containing (around : Around startIndex available before row kept rest) :
    (before ++ row :: (kept ++ rest)).filter (fun other => other.1 < startIndex + 1) = before ++ [row] := by
  have lower := around.lower
  have none_after : (kept ++ rest).filter (fun other => other.1 < startIndex + 1) = [] := by
    refine List.filter_eq_nil_iff.mpr fun other member => ?_
    have bound := around.later other member
    simp only [decide_eq_true_eq]
    omega
  have all_before : before.filter (fun other => other.1 < startIndex + 1) = before := by
    refine List.filter_eq_self.mpr fun other member => ?_
    have bound := around.earlier other member
    simp only [decide_eq_true_eq]
    omega
  rw [List.filter_append, all_before,
    List.filter_cons_of_pos (by simp only [decide_eq_true_eq]; omega), none_after]

end Around

/-- A read plans the segment that its first index is in, and those that start in its range. -/
theorem planSegments_packed {startIndex available : Nat} (packed : store.Packed rows)
    (segments : SegmentRows store rows) (positive : 0 < available)
    (inside : startIndex + available ≤ (items rows).length) :
    ∃ before row kept rest, rows = before ++ row :: (kept ++ rest) ∧
      Around startIndex available before row kept rest ∧
      planSegments startIndex available store = .ok ((row :: kept).map sizeRow) := by
  obtain ⟨before, row, kept, rest, rfl, around⟩ := packed_around packed positive inside
  refine ⟨before, row, kept, rest, rfl, around, ?_⟩
  have listed : store.segmentSizes.toList = (before ++ row :: (kept ++ rest)).map sizeRow := by
    refine toList_eq ?_ packed.sizes
    rw [List.pairwise_map]
    exact packed.contiguous.sorted
  have planned {few : List (Nat × List Bytes)} (subset : ∀ other ∈ few, other ∈ before ++ row :: (kept ++ rest)) :
      (few.map sizeRow).mapM planSegment = .ok (few.map sizeRow) :=
    mapM_map_ok fun other member => planSegment_sizeRow
      (segments.of_subset fun _ same => List.mem_singleton.mp same ▸ subset other member)
      (packed.contiguous.key_le (subset other member)).2.2
  have rowsListed : (store.segmentSizes.toList.filter fun other =>
      startIndex ≤ other.1 ∧ other.1 < startIndex + available).take available =
        (if row.1 = startIndex then row :: kept else kept).map sizeRow := by
    rw [listed, filter_sizeRow fun key => startIndex ≤ key ∧ key < startIndex + available,
      around.inRange positive]
    exact List.take_of_length_le (by rw [List.length_map]; exact around.short positive)
  have subset : ∀ other ∈ if row.1 = startIndex then row :: kept else kept,
      other ∈ before ++ row :: (kept ++ rest) := by
    intro other member
    refine List.mem_append_right _ ?_
    split at member
    · exact (List.mem_cons.mp member).elim (fun same => same ▸ .head _) fun tail =>
        .tail _ (List.mem_append_left _ tail)
    · exact .tail _ (List.mem_append_left _ member)
  unfold planSegments
  rw [rowsListed]
  simp only [planned subset, bind, Except.bind]
  by_cases same : row.1 = startIndex
  · rw [if_pos same, if_pos (by rw [List.map_cons, List.head?_cons, ← same]; rfl)]
  · have first : (kept.map sizeRow).head?.map Prod.fst ≠ some startIndex := by
      cases kept with
      | nil => simp
      | cons next kept =>
        have bound := around.later next (.head _)
        simp only [List.map_cons, List.head?_cons, Option.map_some, sizeRow, ne_eq, Option.some.injEq]
        omega
    have containing : (store.segmentSizes.toList.filter (·.1 < startIndex + 1)).getLast? =
        some (sizeRow row) := by
      rw [listed, filter_sizeRow fun key => key < startIndex + 1, around.containing, List.map_append]
      exact List.getLast?_concat
    have container := planSegment_sizeRow
      (segments.of_subset fun other (same : other ∈ [row]) => List.mem_singleton.mp same ▸
        List.mem_append_right before (.head _)) around.together.2.1
    simp only [if_neg same, if_neg first, containing, container]
    rfl

/-- A stream of segments reads some of the first chunks of the range that fit. -/
theorem readSegmentRows_packed {startIndex available maxBytes : Nat} (packed : store.Packed rows)
    (small : ∀ chunk ∈ items rows, chunk.length ≤ MAX_STREAM_CHUNK_BYTES)
    (indexed : (items rows).length ≤ MAX_STREAM_INDEX) (positive : 0 < available)
    (inside : startIndex + available ≤ (items rows).length) :
    ∃ wanted, wanted <+: ((items rows).drop startIndex).take available ∧ wanted ≠ [] ∧
      readSegmentRows startIndex available maxBytes store = .ok (fitting maxBytes wanted 0) := by
  have segments : SegmentRows store rows := by
    refine ⟨fun row member => (packed.segments _ _).mpr ⟨row, member, rfl, rfl⟩, fun row member => ?_,
      fun row member chunk packed => small chunk (List.mem_flatMap.mpr ⟨row, member, packed⟩)⟩
    have bound := (packed.contiguous.key_le member).2.1
    omega
  obtain ⟨before, row, kept, rest, rfl, around, plan⟩ := planSegments_packed packed segments positive inside
  obtain ⟨together, key, lower, upper, covers⟩ := around
  obtain ⟨chosen, ⟨dropped, rfl⟩, selected⟩ := @selectSegments_isPrefix kept maxBytes 0 row
  have joined := contiguous_append.mp together.2.2
  have loaded := @loadSegments_eq store (row :: chosen) (startIndex + available) maxBytes row.1 startIndex 0
    (segments.of_subset fun other member => List.mem_append_right _ (by
      rcases List.mem_cons.mp member with rfl | tail
      · exact .head _
      · exact .tail _ (List.mem_append_left _ (List.mem_append_left _ tail))))
    ⟨rfl, together.2.1, joined.1⟩ lower fun other same => by
      obtain rfl := Option.some.inj same
      exact Nat.le_of_lt upper
  rw [Nat.add_sub_cancel_left] at loaded
  refine ⟨((items (row :: chosen)).drop (startIndex - row.1)).take available, ?_, ?_, ?_⟩
  · have range : (items (before ++ row :: (chosen ++ dropped ++ rest))).drop startIndex =
        (items (row :: chosen)).drop (startIndex - row.1) ++ items (dropped ++ rest) := by
      have whole : items (before ++ row :: (chosen ++ dropped ++ rest)) =
          items before ++ (items (row :: chosen) ++ items (dropped ++ rest)) := by
        simp only [items_append, items_cons, List.append_assoc]
      have offset : startIndex = (items before).length + (startIndex - row.1) := by omega
      have bound : startIndex - row.1 ≤ (items (row :: chosen)).length := by
        rw [items_cons, List.length_append]
        omega
      rw [whole, offset, List.drop_append, List.drop_eq_nil_of_le (by omega), List.nil_append,
        Nat.add_sub_cancel_left, List.drop_append_of_le_length bound]
      congr 2
      omega
    rw [range, List.take_append]
    exact List.prefix_append _ _
  · intro empty
    have length := congrArg List.length empty
    rw [List.length_take, List.length_drop, items_cons, List.length_append, List.length_nil] at length
    omega
  · have start : startIndex < row.1 + row.2.length := upper
    have coverage : checkCoverage true startIndex ((row :: (chosen ++ dropped)).map sizeRow) =
        .ok (row.1 + (items (row :: (chosen ++ dropped))).length) := by
      have later := checkCoverage_contiguous together.2.2
      simp only [List.map_cons, sizeRow, checkCoverage] at later ⊢
      rw [if_neg (by omega), if_neg (by simp), if_neg (by omega), items_cons, List.length_append, ← Nat.add_assoc]
      exact later
    unfold readSegmentRows
    simp only [plan, coverage, bind, Except.bind]
    rw [if_neg (Nat.not_lt_of_le covers), selected]
    exact loaded

/-- In either layout a read returns some of the first chunks of its range, and at least one. -/
theorem readRows_holds {layout : Option Nat} {written : List Bytes} {startIndex available maxBytes : Nat}
    (holds : store.Holds layout written) (positive : 0 < available) (budget : MAX_STREAM_CHUNK_BYTES ≤ maxBytes)
    (inside : startIndex + available ≤ written.length) :
    ∃ chunks, readRows layout startIndex available maxBytes store = .ok chunks ∧
      chunks <+: (written.drop startIndex).take available ∧ chunks ≠ [] ∧ byteLength chunks ≤ maxBytes := by
  have read : ∃ wanted, wanted <+: (written.drop startIndex).take available ∧ wanted ≠ [] ∧
      readRows layout startIndex available maxBytes store = .ok (fitting maxBytes wanted 0) := by
    unfold readRows
    split
    · rename_i segments
      obtain ⟨rows, packed, rfl⟩ := holds.packed segments
      exact readSegmentRows_packed packed holds.small holds.indexed positive inside
    · rename_i chunks
      refine ⟨_, List.prefix_rfl, fun empty => ?_, readChunkRows_single (holds.single chunks) holds.small inside⟩
      have length := congrArg List.length empty
      rw [List.length_take, List.length_drop, List.length_nil] at length
      omega
  obtain ⟨wanted, within, filled, answer⟩ := read
  refine ⟨_, answer, fitting_isPrefix.trans within, ?_, ?_⟩
  · cases wanted with
    | nil => exact absurd rfl filled
    | cons chunk wanted =>
      have member : chunk ∈ written :=
        List.mem_of_mem_drop (List.mem_of_mem_take (within.subset (.head _)))
      have small := holds.small chunk member
      rw [fitting, if_neg (by omega)]
      exact List.cons_ne_nil _ _
  · have bytes := @fitting_bytes maxBytes 0 wanted (Nat.zero_le _)
    omega

end StreamDO

end CelldWorld
