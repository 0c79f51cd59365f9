import CelldWorld.Library.PackedRows
import CelldWorld.StreamPages
import CelldWorld.StreamReads

namespace CelldWorld

open PackedRows StreamDO

/-- The size row of a segment. -/
def sizeRow (row : Nat × List Bytes) : Nat × SegmentSize := (row.1, ⟨row.2.length, byteLength row.2⟩)

@[simp] theorem byteLength_nil : byteLength [] = 0 := rfl

@[simp] theorem byteLength_cons (chunk : Bytes) (chunks : List Bytes) :
    byteLength (chunk :: chunks) = chunk.length + byteLength chunks := by
  simp [byteLength]

theorem byteLength_append (chunks more : List Bytes) :
    byteLength (chunks ++ more) = byteLength chunks + byteLength more := by
  simp [byteLength]

namespace StreamStore

/-- The segment rows of a stream. -/
structure Packed (rows : List (Nat × List Bytes)) (store : StreamStore) : Prop where
  contiguous : Contiguous 0 rows
  sizes : ∀ key size, store.segmentSizes[key]? = some size ↔ (key, size) ∈ rows.map sizeRow
  segments : ∀ key segment, store.segments[key]? = some segment ↔
    ∃ row ∈ rows, row.1 = key ∧ encodeSegment row.2 = segment

/-- The chunk rows of a stream. -/
structure Single (written : List Bytes) (store : StreamStore) : Prop where
  sizes : ∀ index : Nat, store.chunkSizes[index]? = written[index]?.map List.length
  chunks : ∀ index : Nat, store.chunks[index]? = written[index]?

/-- The rows of a stream hold what was written to it. -/
structure Holds (layout : Option Nat) (written : List Bytes) (store : StreamStore) : Prop where
  small : ∀ chunk ∈ written, chunk.length ≤ MAX_STREAM_CHUNK_BYTES
  indexed : written.length ≤ MAX_STREAM_INDEX
  packed : layout = some SEGMENT_LAYOUT → ∃ rows, store.Packed rows ∧ items rows = written
  single : layout ≠ some SEGMENT_LAYOUT → store.Single written

variable {store : StreamStore}

theorem Packed.start {metadata : Option StreamMeta} : Packed [] { metadata } where
  contiguous := trivial
  sizes key size := by simp
  segments key segment := by simp

theorem Single.start {metadata : Option StreamMeta} : Single [] { metadata } where
  sizes index := by simp
  chunks index := by simp

/-- The next segment of a stream. -/
theorem Packed.putSegment {rows : List (Nat × List Bytes)} {row : Nat × List Bytes} (packed : store.Packed rows)
    (next : row.1 = (items rows).length) (filled : row.2 ≠ []) :
    Packed (rows ++ [row]) (StreamDO.putSegment store row) where
  contiguous := by
    refine contiguous_append.mpr ⟨packed.contiguous, ?_⟩
    rw [Nat.zero_add]
    exact ⟨next, filled, trivial⟩
  sizes key size := by
    have inserted : (StreamDO.putSegment store row).segmentSizes[key]? =
        if row.1 = key then some (sizeRow row).2 else store.segmentSizes[key]? := by
      simp only [StreamDO.putSegment, Std.ExtTreeMap.getElem?_insert, Nat.compare_eq_eq]
      rfl
    have earlier (value : SegmentSize) (listed : (key, value) ∈ rows.map sizeRow) : row.1 ≠ key := by
      obtain ⟨before, member, same⟩ := List.mem_map.mp listed
      have bound := packed.contiguous.key_le member
      have positive := List.length_pos_of_ne_nil bound.2.2
      have key_eq : before.1 = key := congrArg Prod.fst same
      omega
    rw [inserted, List.map_append, List.mem_append, List.map_singleton, List.mem_singleton]
    by_cases same : row.1 = key
    · rw [if_pos same]
      constructor
      · intro stored
        exact .inr (by rw [← Option.some.inj stored, ← same]; rfl)
      · rintro (listed | last)
        · exact absurd same (earlier size listed)
        · rw [← last]
    · rw [if_neg same, packed.sizes]
      refine ⟨.inl, fun listed => listed.resolve_right fun last => same ?_⟩
      exact (congrArg Prod.fst last).symm
  segments key segment := by
    have inserted : (StreamDO.putSegment store row).segments[key]? =
        if row.1 = key then some (encodeSegment row.2) else store.segments[key]? := by
      simp only [StreamDO.putSegment, Std.ExtTreeMap.getElem?_insert, Nat.compare_eq_eq]
    rw [inserted]
    constructor
    · intro stored
      by_cases same : row.1 = key
      · rw [if_pos same] at stored
        exact ⟨row, List.mem_append_right _ (.head _), same, Option.some.inj stored⟩
      · rw [if_neg same, packed.segments] at stored
        obtain ⟨before, member, at_key, encoded⟩ := stored
        exact ⟨before, List.mem_append_left _ member, at_key, encoded⟩
    · rintro ⟨before, member, at_key, encoded⟩
      rcases List.mem_append.mp member with earlier | last
      · have bound := packed.contiguous.key_le earlier
        have positive := List.length_pos_of_ne_nil bound.2.2
        rw [if_neg (by omega), packed.segments]
        exact ⟨before, earlier, at_key, encoded⟩
      · obtain rfl := List.mem_singleton.mp last
        rw [if_pos at_key, encoded]

theorem Packed.putSegments {rows more : List (Nat × List Bytes)} (packed : store.Packed rows)
    (contiguous : Contiguous (items rows).length more) :
    Packed (rows ++ more) (more.foldl StreamDO.putSegment store) := by
  induction more generalizing store rows with
  | nil => rwa [List.append_nil]
  | cons row more ih =>
    obtain ⟨next, filled, rest⟩ := contiguous
    have put := packed.putSegment next filled
    have later := ih put (by simpa [List.length_append] using rest)
    rwa [List.append_assoc] at later

/-- The next chunk of a stream. -/
theorem Single.putChunk {written : List Bytes} {chunk : Bytes} (single : store.Single written) :
    Single (written ++ [chunk]) (StreamDO.putChunk store (written.length, chunk)) where
  sizes index := by
    simp only [StreamDO.putChunk, Std.ExtTreeMap.getElem?_insert, Nat.compare_eq_eq]
    by_cases same : written.length = index
    · subst same
      simp
    · rw [if_neg same, single.sizes]
      rcases Nat.lt_or_ge index written.length with earlier | later
      · rw [List.getElem?_append_left earlier]
      · have beyond : written.length < index := by omega
        rw [List.getElem?_eq_none later, List.getElem?_eq_none (by simp; omega)]
  chunks index := by
    simp only [StreamDO.putChunk, Std.ExtTreeMap.getElem?_insert, Nat.compare_eq_eq]
    by_cases same : written.length = index
    · subst same
      simp
    · rw [if_neg same, single.chunks]
      rcases Nat.lt_or_ge index written.length with earlier | later
      · rw [List.getElem?_append_left earlier]
      · have beyond : written.length < index := by omega
        rw [List.getElem?_eq_none later, List.getElem?_eq_none (by simp; omega)]

theorem Single.putChunks {written chunks : List Bytes} (single : store.Single written) :
    Single (written ++ chunks) ((chunks.zipIdx written.length).foldl
      (fun store (chunk, index) => StreamDO.putChunk store (index, chunk)) store) := by
  induction chunks generalizing store written with
  | nil => rwa [List.append_nil]
  | cons chunk chunks ih =>
    have put := @Single.putChunk store written chunk single
    have later := ih put
    rw [List.append_assoc, List.length_append] at later
    exact later

end StreamStore

namespace StreamDO

/-- A write packs its chunks in order into rows of their own. -/
theorem packFrom_packs {start bytes : Nat} {current chunks : List Bytes} :
    Contiguous start (packFrom start current bytes chunks) ∧
      items (packFrom start current bytes chunks) = current ++ chunks := by
  induction chunks generalizing start current bytes with
  | nil =>
    unfold packFrom
    split
    · rename_i filled
      exact ⟨⟨rfl, filled, trivial⟩, rfl⟩
    · rename_i empty
      rw [not_not.mp empty]
      exact ⟨trivial, rfl⟩
  | cons chunk chunks ih =>
    unfold packFrom
    split
    · rename_i full
      obtain ⟨contiguous, packed⟩ := @ih (start + current.length) chunk.length [chunk]
      exact ⟨⟨rfl, full.1, contiguous⟩, by rw [items_cons, packed, List.singleton_append]⟩
    · obtain ⟨contiguous, packed⟩ := @ih start (bytes + chunk.length) (current ++ [chunk])
      exact ⟨contiguous, by rw [packed, List.append_assoc, List.singleton_append]⟩

end StreamDO

namespace StreamStore
variable {store : StreamStore} {layout : Option Nat} {written chunks : List Bytes}

/-- A write appends its chunks to what the rows hold. -/
theorem Holds.putRows (holds : store.Holds layout written)
    (small : ∀ chunk ∈ chunks, chunk.length ≤ MAX_STREAM_CHUNK_BYTES)
    (indexed : written.length + chunks.length ≤ MAX_STREAM_INDEX) :
    (StreamDO.putRows layout written.length chunks store).Holds layout (written ++ chunks) where
  small chunk member := (List.mem_append.mp member).elim (holds.small chunk) (small chunk)
  indexed := by rwa [List.length_append]
  packed same := by
    obtain ⟨rows, packed, rfl⟩ := holds.packed same
    have packs := @packFrom_packs (items rows).length 0 [] chunks
    refine ⟨rows ++ packSegments (items rows).length chunks, ?_, ?_⟩
    · rw [StreamDO.putRows, if_pos same]
      exact packed.putSegments packs.1
    · rw [items_append, packSegments, packs.2, List.nil_append]
  single different := by
    rw [StreamDO.putRows, if_neg different]
    exact (holds.single different).putChunks

end StreamStore

end CelldWorld
