import CelldWorld.StreamRegistry

namespace CelldWorld

namespace StreamStore

def Rowless (store : StreamStore) : Prop :=
  store.chunks = ∅ ∧ store.chunkSizes = ∅ ∧ store.segments = ∅ ∧ store.segmentSizes = ∅

/-- The rows of a stream are those of one layout. -/
def OfLayout (layout : Option Nat) (store : StreamStore) : Prop :=
  (layout = some SEGMENT_LAYOUT → store.chunks = ∅ ∧ store.chunkSizes = ∅) ∧
    (layout ≠ some SEGMENT_LAYOUT → store.segments = ∅ ∧ store.segmentSizes = ∅)

/-- How many rows a stream has, of any kind. -/
def rows (store : StreamStore) : Nat :=
  store.chunks.size + store.chunkSizes.size + store.segments.size + store.segmentSizes.size

/-- A stream has rows in its own layout only. -/
structure Laid (store : StreamStore) : Prop where
  unwritten : store.metadata = none → store.Rowless
  packed : ∀ metadata, store.metadata = some metadata → metadata.layout = some SEGMENT_LAYOUT →
    store.chunks = ∅ ∧ store.chunkSizes = ∅
  single : ∀ metadata, store.metadata = some metadata → metadata.layout ≠ some SEGMENT_LAYOUT →
    store.segments = ∅ ∧ store.segmentSizes = ∅

/-- The stream is expired and has no rows. -/
def Gone (store : StreamStore) : Prop :=
  (∃ metadata, store.metadata = some metadata ∧ metadata.state = .expired) ∧ store.Rowless

end StreamStore

/-- A call that writes one stream cell. -/
inductive StreamOp
  | write (newLayout : Option Nat) (chunks : List Bytes)
  | close
  | fail (normalized : StreamErrorData)
  | expire (expiredAt : Nat) (limit byteLimit : Option Nat)
  deriving DecidableEq, Repr

/-- The call on behalf of a run. -/
def StreamOp.run (runId : String) (op : StreamOp) (store : StreamStore) : Except Thrown StreamStore :=
  match op with
  | .write newLayout chunks => (StreamDO.writeChunks newLayout runId chunks store).map Prod.snd
  | .close => StreamDO.closeStream runId store
  | .fail normalized => StreamDO.failStream runId normalized store
  | .expire expiredAt limit byteLimit =>
    (StreamDO.expireStream runId expiredAt limit byteLimit store).map Prod.snd

namespace StreamDO
variable {runId : String} {store after : StreamStore} {metadata : StreamMeta}

theorem loadMeta_ok (load : loadMeta store = .ok metadata) :
    (store.metadata = none ∧ metadata = emptyMeta) ∨ store.metadata = some metadata := by
  unfold loadMeta at load
  split at load
  · rename_i absent
    cases load
    exact .inl ⟨absent, rfl⟩
  · rename_i stored found
    unfold validateMeta at load
    split at load
    · cases load
    split at load
    · cases load
    · cases load
      exact .inr found

theorem validateMeta_iff {valid : StreamMeta} : validateMeta metadata = .ok valid ↔
    valid = metadata ∧ metadata.count ≤ MAX_STREAM_INDEX ∧ (∀ layout ∈ metadata.layout, layout = SEGMENT_LAYOUT) ∧
      decide (metadata.state = .errored) = metadata.error.isSome := by
  unfold validateMeta
  by_cases range : MAX_STREAM_INDEX < metadata.count ∨ metadata.layout.any (· ≠ SEGMENT_LAYOUT)
  · rw [if_pos range]
    constructor
    · intro same
      cases same
    rintro ⟨-, bounded, layouts, -⟩
    rcases range with beyond | other
    · omega
    · obtain ⟨layout, member, different⟩ := Option.any_eq_true _ _ |>.mp other
      exact absurd (layouts layout member) (by simpa using different)
  · rw [if_neg range]
    rw [not_or, Option.any_eq_true] at range
    obtain ⟨bounded, layouts⟩ := range
    by_cases errors : decide (metadata.state = .errored) = metadata.error.isSome
    · rw [if_neg (not_not_intro errors)]
      constructor
      · intro same
        refine ⟨(Except.ok.inj same).symm, Nat.le_of_not_lt bounded, fun layout member => ?_, errors⟩
        refine Decidable.byContradiction fun different => ?_
        exact layouts ⟨layout, member, by simpa using different⟩
      · rintro ⟨rfl, -⟩
        rfl
    · rw [if_pos errors]
      constructor
      · intro same
        cases same
      · intro valid
        exact absurd valid.2.2.2 errors

/-- Loaded metadata is valid, and would load again. -/
theorem loadMeta_valid (load : loadMeta store = .ok metadata) : validateMeta metadata = .ok metadata := by
  unfold loadMeta at load
  split at load
  · cases load
    rfl
  · have valid := validateMeta_iff.mp load
    rw [valid.1] at load ⊢
    exact load

theorem assertOwner_ok (owned : assertOwner metadata runId = .ok ()) :
    runId ≠ "" ∧ ∀ owner ∈ metadata.ownerRunId, owner = runId := by
  unfold assertOwner at owned
  split at owned
  · cases owned
  rename_i named
  refine ⟨named, fun owner member => ?_⟩
  rw [member] at owned
  refine Decidable.byContradiction fun different => ?_
  simp [different] at owned

theorem assertOwner_of (named : runId ≠ "") (owned : ∀ owner ∈ metadata.ownerRunId, owner = runId) :
    assertOwner metadata runId = .ok () := by
  unfold assertOwner
  rw [if_neg named]
  cases stored : metadata.ownerRunId with
  | none => rfl
  | some owner =>
    obtain rfl := owned owner stored
    simp

theorem indexFromChunkSizeKey_iff {key index : Nat} :
    indexFromChunkSizeKey key = .ok index ↔ index = key ∧ key ≤ MAX_STREAM_INDEX := by
  unfold indexFromChunkSizeKey
  split <;> grind

theorem indexFromChunkKey_iff {key index : Nat} :
    indexFromChunkKey key = .ok index ↔ index = key ∧ key ≤ MAX_STREAM_INDEX := by
  unfold indexFromChunkKey
  split <;> grind

theorem startFromSegmentKey_iff {keyPrefix : String} {key start : Nat} :
    startFromSegmentKey keyPrefix key = .ok start ↔ start = key ∧ key ≤ MAX_STREAM_INDEX := by
  unfold startFromSegmentKey
  split <;> grind

theorem validateSegmentSize_iff {value size : SegmentSize} {start : Nat} :
    validateSegmentSize value start = .ok size ↔
      size = value ∧ 1 ≤ value.count ∧ value.count ≤ MAX_SAFE_INTEGER ∧ value.bytes ≤ MAX_SAFE_INTEGER := by
  unfold validateSegmentSize
  split <;> grind

theorem foldl_deleteChunk (page : List Nat) :
    page.foldl deleteChunk store = { store with
      chunks := page.foldl (fun remaining index => remaining.erase index) store.chunks
      chunkSizes := page.foldl (fun remaining index => remaining.erase index) store.chunkSizes } := by
  induction page generalizing store with
  | nil => rfl
  | cons index page ih => exact ih

theorem foldl_deleteSegment (page : List Nat) :
    page.foldl deleteSegment store = { store with
      segments := page.foldl (fun remaining start => remaining.erase start) store.segments
      segmentSizes := page.foldl (fun remaining start => remaining.erase start) store.segmentSizes } := by
  induction page generalizing store with
  | nil => rfl
  | cons start page ih => exact ih

/-- A page takes the first of its candidates. -/
theorem chunkPage_ok {byteLimit bytes bytes' : Nat} {candidates : List (Nat × Nat)} {page page' : List Nat}
    (call : chunkPage byteLimit candidates page bytes = .ok (page', bytes')) :
    ∃ taken rest, candidates = taken ++ rest ∧ page' = page ++ taken.map Prod.fst := by
  induction candidates generalizing page bytes with
  | nil =>
    cases call
    exact ⟨[], [], rfl, (List.append_nil _).symm⟩
  | cons candidate candidates ih =>
    unfold chunkPage at call
    obtain ⟨index, key, call⟩ := bind_ok.mp call
    obtain ⟨size, -, call⟩ := bind_ok.mp call
    split at call
    · cases call
      exact ⟨[], _, rfl, (List.append_nil _).symm⟩
    · have same := (indexFromChunkSizeKey_iff.mp key).1
      obtain ⟨taken, rest, rfl, rfl⟩ := ih call
      exact ⟨candidate :: taken, rest, rfl, by simp [same]⟩

/-- A page of segments never takes the candidate that was listed beyond the limit. -/
theorem segmentPage_ok {limit byteLimit chunks bytes chunks' bytes' : Nat} {candidates : List (Nat × SegmentSize)}
    {page page' : List Nat} (filled : page.length ≤ chunks) (bounded : page.length ≤ 1 ∨ chunks ≤ limit)
    (call : segmentPage limit byteLimit candidates page chunks bytes = .ok (page', chunks', bytes')) :
    (∃ taken rest, candidates = taken ++ rest ∧ page' = page ++ taken.map Prod.fst) ∧
      page'.length ≤ chunks' ∧ (page'.length ≤ 1 ∨ chunks' ≤ limit) := by
  induction candidates generalizing page chunks bytes with
  | nil =>
    cases call
    exact ⟨⟨[], [], rfl, (List.append_nil _).symm⟩, filled, bounded⟩
  | cons candidate candidates ih =>
    unfold segmentPage at call
    obtain ⟨start, key, call⟩ := bind_ok.mp call
    obtain ⟨size, valid, call⟩ := bind_ok.mp call
    split at call
    · cases call
      exact ⟨⟨[], _, rfl, (List.append_nil _).symm⟩, filled, bounded⟩
    rename_i fits
    have same := (startFromSegmentKey_iff.mp key).1
    obtain ⟨rfl, counted, -⟩ := validateSegmentSize_iff.mp valid
    have filled' : (page ++ [start]).length ≤ chunks + candidate.2.count := by
      rw [List.length_append, List.length_singleton]
      omega
    have bounded' : (page ++ [start]).length ≤ 1 ∨ chunks + candidate.2.count ≤ limit := by
      by_cases first : page = []
      · exact .inl (by simp [first])
      · exact .inr (Nat.le_of_not_lt fun beyond => fits ⟨first, .inl beyond⟩)
    obtain ⟨⟨taken, rest, rfl, rfl⟩, last⟩ := ih filled' bounded' call
    exact ⟨⟨candidate :: taken, rest, rfl, by simp [same]⟩, last⟩

/-- A page as long as a listing that was not cut off deletes every row that was listed. -/
theorem foldl_erase_empty {ν : Type} {rows : OffsetMap ν} {page : List Nat} {limit : Nat}
    {taken rest : List (Nat × ν)}
    (listed : rows.toList.take (limit + 1) = taken ++ rest) (deleted : page = taken.map Prod.fst)
    (whole : (rows.toList.take (limit + 1)).length = page.length) (short : page.length ≤ limit) :
    page.foldl (fun remaining key => remaining.erase key) rows = ∅ := by
  have all : taken = rows.toList := by
    have none_left : rest = [] := by
      rw [listed, deleted, List.length_append, List.length_map] at whole
      exact List.length_eq_zero_iff.mp (by omega)
    rw [none_left, List.append_nil] at listed
    rw [← listed]
    apply List.take_of_length_le
    rw [List.length_take] at whole
    omega
  rw [Std.ExtTreeMap.eq_empty_iff_forall_contains]
  intro key
  rw [foldl_erase_contains, deleted, all, Std.ExtTreeMap.map_fst_toList_eq_keys]
  cases stored : rows.contains key with
  | false => rfl
  | true => simpa using stored

theorem expireChunkPage_ok {limit byteLimit chunks bytes : Nat} {done : Bool}
    (call : expireChunkPage limit byteLimit store = .ok ((chunks, bytes, done), after)) :
    ∃ page : List Nat, after = page.foldl deleteChunk store ∧
      (done = true → after.chunks = ∅ ∧ after.chunkSizes = ∅) := by
  unfold expireChunkPage at call
  simp only at call
  split at call
  · rename_i key payload candidates _
    obtain ⟨index, -, call⟩ := bind_ok.mp call
    cases call
    refine ⟨[index], rfl, fun done => ⟨Std.ExtTreeMap.isEmpty_iff.mp done, ?_⟩⟩
    have unlisted : store.chunkSizes = ∅ := by
      rw [← Std.ExtTreeMap.isEmpty_iff, ← Std.ExtTreeMap.isEmpty_toList, List.isEmpty_iff]
      simpa using candidates
    change store.chunkSizes.erase index = ∅
    rw [unlisted, Std.ExtTreeMap.erase_empty]
  · rename_i other
    obtain ⟨⟨page, paged⟩, fill, call⟩ := bind_ok.mp call
    cases call
    obtain ⟨taken, rest, listed, same⟩ := chunkPage_ok fill
    refine ⟨page, rfl, fun done => ?_⟩
    simp only [foldl_deleteChunk, decide_eq_true_eq] at done ⊢
    obtain ⟨whole, verified⟩ := done
    constructor
    · rcases verified with unlisted | verified
      · -- nothing is listed, and the page did not fall back to an orphan payload
        have none_listed := List.length_eq_zero_iff.mp unlisted
        have rows : store.chunks = ∅ := by
          rw [← Std.ExtTreeMap.isEmpty_iff, ← Std.ExtTreeMap.isEmpty_toList, List.isEmpty_iff]
          cases first : store.chunks.toList with
          | nil => rfl
          | cons row rows => exact (other row.1 row.2 none_listed (by rw [first]; rfl)).elim
        rw [none_listed] at whole
        rw [List.length_eq_zero_iff.mp whole.symm]
        exact rows
      · exact Std.ExtTreeMap.isEmpty_iff.mp verified
    · have short : page.length ≤ limit := by
        have bound := congrArg List.length listed
        rw [List.length_append, List.length_take] at bound
        rw [same, List.nil_append, List.length_map]
        omega
      refine @foldl_erase_empty Nat store.chunkSizes page limit taken
        (rest ++ (store.chunkSizes.toList.take (limit + 1)).drop limit) ?_ same whole short
      rw [← List.append_assoc, ← listed, List.take_append_drop]

theorem expireSegmentPage_ok {limit byteLimit chunks bytes : Nat} {done : Bool} (positive : 1 ≤ limit)
    (call : expireSegmentPage limit byteLimit store = .ok ((chunks, bytes, done), after)) :
    ∃ page : List Nat, after = page.foldl deleteSegment store ∧
      (done = true → after.segments = ∅ ∧ after.segmentSizes = ∅) := by
  unfold expireSegmentPage at call
  simp only at call
  split at call
  · rename_i key segment candidates _
    obtain ⟨start, -, call⟩ := bind_ok.mp call
    cases call
    refine ⟨[start], rfl, fun done => ⟨Std.ExtTreeMap.isEmpty_iff.mp done, ?_⟩⟩
    have unlisted : store.segmentSizes = ∅ := by
      rw [← Std.ExtTreeMap.isEmpty_iff, ← Std.ExtTreeMap.isEmpty_toList, List.isEmpty_iff]
      simpa using candidates
    change store.segmentSizes.erase start = ∅
    rw [unlisted, Std.ExtTreeMap.erase_empty]
  · obtain ⟨⟨page, counted, paged⟩, fill, call⟩ := bind_ok.mp call
    cases call
    obtain ⟨⟨taken, rest, listed, same⟩, filled, bounded⟩ := segmentPage_ok
      (show ([] : List Nat).length ≤ 0 from Nat.le_refl 0) (.inl (Nat.zero_le 1)) fill
    refine ⟨page, rfl, fun done => ?_⟩
    simp only [foldl_deleteSegment, decide_eq_true_eq] at done ⊢
    exact ⟨Std.ExtTreeMap.isEmpty_iff.mp done.2, foldl_erase_empty listed same done.1 (by omega)⟩

theorem boundedLimit_pos {value : Option Nat} {fallback maximum : Nat} (positive : 1 ≤ fallback) :
    1 ≤ boundedLimit value fallback maximum := by
  unfold boundedLimit
  split
  · exact positive
  · exact Nat.le_max_left _ _

/-- What a page leaves of the rows of a stream with this layout. -/
def Paged (layout : Option Nat) (done : Bool) (before after : StreamStore) : Prop :=
  if layout = some SEGMENT_LAYOUT then
    ∃ page : List Nat, after = page.foldl deleteSegment before ∧
      (done = true → after.segments = ∅ ∧ after.segmentSizes = ∅)
  else ∃ page : List Nat, after = page.foldl deleteChunk before ∧
    (done = true → after.chunks = ∅ ∧ after.chunkSizes = ∅)

theorem expirePage_ok {layout : Option Nat} {limit byteLimit chunks bytes : Nat} {done : Bool}
    {paged : StreamStore}
    (positive : 1 ≤ limit) (page : expirePage layout limit byteLimit store = .ok ((chunks, bytes, done), paged)) :
    Paged layout done store paged := by
  unfold expirePage at page
  unfold Paged
  split at page
  · rename_i packed
    rw [if_pos packed]
    exact expireSegmentPage_ok positive page
  · rename_i single
    rw [if_neg single]
    exact expireChunkPage_ok page

theorem Paged.metadata_eq {layout : Option Nat} {done : Bool} {paged : StreamStore}
    (pages : Paged layout done store paged) : paged.metadata = store.metadata := by
  unfold Paged at pages
  split at pages
  · obtain ⟨page, rfl, -⟩ := pages
    rw [foldl_deleteSegment]
  · obtain ⟨page, rfl, -⟩ := pages
    rw [foldl_deleteChunk]

theorem expireStream_ok {expiredAt : Nat} {limit byteLimit : Option Nat} {result : ExpireStreamResult}
    (call : expireStream runId expiredAt limit byteLimit store = .ok (result, after)) :
    ∃ metadata paged next, loadMeta store = .ok metadata ∧ next.state = .expired ∧
      next.layout = metadata.layout ∧ after = { paged with metadata := some next } ∧
      Paged metadata.layout result.done store paged ∧ validateMeta next = .ok next ∧
      (next.ownerRunId = some runId ∨ next = metadata) := by
  unfold expireStream at call
  obtain ⟨metadata, load, call⟩ := bind_ok.mp call
  obtain ⟨_, -, call⟩ := bind_ok.mp call
  obtain ⟨⟨⟨chunks, bytes, done⟩, paged⟩, page, call⟩ := bind_ok.mp call
  have pages := expirePage_ok (boundedLimit_pos (by decide)) page
  simp only at call
  split at call
  · rename_i again
    obtain ⟨finished, -, expired, -⟩ := again
    cases call
    have stored : store.metadata = some metadata := by
      rcases loadMeta_ok load with ⟨-, rfl⟩ | stored
      · cases expired
      · exact stored
    have same : after = { after with metadata := some metadata } := by
      rw [← stored, ← pages.metadata_eq]
    exact ⟨metadata, after, metadata, load, expired, rfl, same, finished ▸ pages, loadMeta_valid load, .inr rfl⟩
  · cases call
    obtain ⟨-, bounded, layouts, -⟩ := validateMeta_iff.mp (loadMeta_valid load)
    refine ⟨metadata, paged, _, load, ?_, ?_, rfl, pages, validateMeta_iff.mpr ⟨rfl, ?_, layouts, rfl⟩, .inl rfl⟩
    · rfl
    · rfl
    · simp only
      split
      · exact Nat.zero_le _
      · exact bounded

theorem foldl_putSegment (rows : List (Nat × List Bytes)) :
    ∃ segments segmentSizes, rows.foldl putSegment store = { store with segments, segmentSizes } := by
  induction rows generalizing store with
  | nil => exact ⟨_, _, rfl⟩
  | cons row rows ih => exact ih

theorem foldl_putChunk (rows : List (Bytes × Nat)) :
    ∃ chunks chunkSizes, rows.foldl (fun store (chunk, index) => putChunk store (index, chunk)) store =
      { store with chunks, chunkSizes } := by
  induction rows generalizing store with
  | nil => exact ⟨_, _, rfl⟩
  | cons row rows ih => exact ih

theorem assertWritable_ok {metadata : StreamMeta} (writable : assertWritable metadata runId = .ok ()) :
    assertOwner metadata runId = .ok () ∧ metadata.state = .opened := by
  unfold assertWritable at writable
  obtain ⟨⟨⟩, owner, writable⟩ := bind_ok.mp writable
  refine ⟨owner, ?_⟩
  split at writable
  · cases writable
  · cases writable
  · cases writable
  · assumption

theorem writeChunks_ok {newLayout : Option Nat} {chunks : List Bytes} {result : StreamWriteResult}
    (call : writeChunks newLayout runId chunks store = .ok (result, after)) :
    ∃ total metadata next, validateStreamWriteChunks chunks = .ok total ∧ loadMeta store = .ok metadata ∧
      assertWritable metadata runId = .ok () ∧
      next = { count := metadata.count + chunks.length, state := .opened, ownerRunId := some runId,
               layout := if store.metadata = none then newLayout else metadata.layout } ∧
      next.count ≤ MAX_STREAM_INDEX ∧ result = ⟨metadata.count, chunks.length, next.count - 1⟩ ∧
      after = putRows next.layout metadata.count chunks { store with metadata := some next } := by
  unfold writeChunks at call
  obtain ⟨total, valid, call⟩ := bind_ok.mp call
  obtain ⟨metadata, load, call⟩ := bind_ok.mp call
  obtain ⟨⟨⟩, writable, call⟩ := bind_ok.mp call
  simp only at call
  split at call
  · cases call
  · rename_i bounded
    cases call
    exact ⟨total, metadata, _, valid, load, writable, rfl, Nat.le_of_not_lt bounded, rfl, rfl⟩

/-- The first of a close and a failure ends the stream; a later one leaves it as it is. -/
theorem endStream_ok {ended : StreamMeta → StreamMeta} (call : endStream ended runId store = .ok after) :
    ∃ metadata, loadMeta store = .ok metadata ∧ assertOwner metadata runId = .ok () ∧
      ((metadata.state = .opened ∧ after = { store with metadata := some (ended metadata) }) ∨
        ((metadata.state = .closed ∨ metadata.state = .errored) ∧ after = store)) := by
  unfold endStream at call
  obtain ⟨metadata, load, call⟩ := bind_ok.mp call
  obtain ⟨⟨⟩, owner, call⟩ := bind_ok.mp call
  refine ⟨metadata, load, owner, ?_⟩
  split at call
  · cases call
  · rename_i opened
    cases call
    exact .inl ⟨opened, rfl⟩
  · rename_i closed
    cases call
    exact .inr ⟨.inl closed, rfl⟩
  · rename_i errored
    cases call
    exact .inr ⟨.inr errored, rfl⟩

theorem endStream_opened {ended : StreamMeta → StreamMeta} {metadata : StreamMeta}
    (load : loadMeta store = .ok metadata) (opened : metadata.state = .opened)
    (call : endStream ended runId store = .ok after) :
    after = { store with metadata := some (ended metadata) } := by
  obtain ⟨stored, load', -, ⟨-, same⟩ | ⟨closed | errored, -⟩⟩ := endStream_ok call
  · rw [same, Except.ok.inj (load'.symm.trans load)]
  · cases (Except.ok.inj (load'.symm.trans load) ▸ opened).symm.trans closed
  · cases (Except.ok.inj (load'.symm.trans load) ▸ opened).symm.trans errored

end StreamDO

open StreamDO

namespace StreamStore
variable {runId : String} {store after : StreamStore} {metadata : StreamMeta}

theorem Laid.start : Laid {} where
  unwritten _ := ⟨rfl, rfl, rfl, rfl⟩
  packed _ stored := by cases stored
  single _ stored := by cases stored

/-- The rows of the other layout, in terms of the metadata that a call loads. -/
theorem Laid.loaded (laid : store.Laid) (load : loadMeta store = .ok metadata) :
    store.OfLayout metadata.layout := by
  rcases loadMeta_ok load with ⟨absent, rfl⟩ | stored
  · obtain ⟨chunks, chunkSizes, segments, segmentSizes⟩ := laid.unwritten absent
    exact ⟨fun _ => ⟨chunks, chunkSizes⟩, fun _ => ⟨segments, segmentSizes⟩⟩
  · exact ⟨laid.packed metadata stored, laid.single metadata stored⟩

/-- A write of the metadata that keeps the layout. -/
theorem Laid.meta {next : StreamMeta} (laid : store.Laid) (load : loadMeta store = .ok metadata)
    (layout : next.layout = metadata.layout) : Laid { store with metadata := some next } where
  unwritten absent := by cases absent
  packed other same packed := by
    obtain rfl := Option.some.inj same
    exact (laid.loaded load).1 (layout ▸ packed)
  single other same single := by
    obtain rfl := Option.some.inj same
    exact (laid.loaded load).2 (layout ▸ single)

theorem Laid.putRows {next : StreamMeta} {startIndex : Nat} {chunks : List Bytes}
    (packed : next.layout = some SEGMENT_LAYOUT → store.chunks = ∅ ∧ store.chunkSizes = ∅)
    (single : next.layout ≠ some SEGMENT_LAYOUT → store.segments = ∅ ∧ store.segmentSizes = ∅) :
    Laid (StreamDO.putRows next.layout startIndex chunks { store with metadata := some next }) := by
  unfold StreamDO.putRows
  split
  · rename_i layout
    obtain ⟨segments, segmentSizes, same⟩ := @foldl_putSegment { store with metadata := some next }
      (packSegments startIndex chunks)
    rw [same]
    refine ⟨nofun, fun other stored _ => packed layout, fun other stored different => ?_⟩
    exact absurd (Option.some.inj stored ▸ layout) different
  · rename_i layout
    obtain ⟨rows, rowSizes, same⟩ :=
      @foldl_putChunk { store with metadata := some next } (chunks.zipIdx startIndex)
    rw [same]
    refine ⟨nofun, fun other stored equal => ?_, fun other stored _ => single layout⟩
    exact absurd (Option.some.inj stored ▸ equal) layout

/-- A page of an expiry keeps the layout and fences the stream. -/
theorem OfLayout.expireStream {expiredAt : Nat} {limit byteLimit : Option Nat} {result : ExpireStreamResult}
    (laid : ∀ metadata, loadMeta store = .ok metadata → store.OfLayout metadata.layout)
    (call : StreamDO.expireStream runId expiredAt limit byteLimit store = .ok (result, after)) :
    after.Laid ∧ (result.done = true → after.Gone) := by
  obtain ⟨metadata, paged, next, load, expired, layout, rfl, pages, -⟩ := expireStream_ok call
  obtain ⟨packed, single⟩ := laid metadata load
  unfold Paged at pages
  split at pages
  · rename_i segments
    obtain ⟨page, rfl, finished⟩ := pages
    obtain ⟨chunks, chunkSizes⟩ := packed segments
    simp only [foldl_deleteSegment] at finished ⊢
    refine ⟨⟨nofun, fun _ _ _ => ⟨chunks, chunkSizes⟩, fun other stored different => ?_⟩, fun done => ?_⟩
    · exact absurd (Option.some.inj stored ▸ layout.trans segments) different
    · exact ⟨⟨next, rfl, expired⟩, chunks, chunkSizes, finished done⟩
  · rename_i rows
    obtain ⟨page, rfl, finished⟩ := pages
    obtain ⟨segments, segmentSizes⟩ := single rows
    simp only [foldl_deleteChunk] at finished ⊢
    refine ⟨⟨nofun, fun other stored equal => ?_, fun _ _ _ => ⟨segments, segmentSizes⟩⟩, fun done => ?_⟩
    · exact absurd (layout.symm.trans (Option.some.inj stored ▸ equal)) rows
    · exact ⟨⟨next, rfl, expired⟩, (finished done).1, (finished done).2, segments, segmentSizes⟩

theorem Laid.expireStream {expiredAt : Nat} {limit byteLimit : Option Nat} {result : ExpireStreamResult}
    (laid : store.Laid)
    (call : StreamDO.expireStream runId expiredAt limit byteLimit store = .ok (result, after)) :
    after.Laid ∧ (result.done = true → after.Gone) :=
  OfLayout.expireStream (fun _ load => laid.loaded load) call

/-- Every call keeps the rows of a stream in its layout. -/
theorem Laid.run {op : StreamOp} (laid : store.Laid) (call : op.run runId store = .ok after) : after.Laid := by
  cases op with
  | write newLayout chunks =>
    obtain ⟨⟨result, written⟩, write, rfl⟩ := map_ok.mp call
    obtain ⟨total, metadata, next, -, load, -, same, -, -, rfl⟩ := writeChunks_ok write
    have layout : next.layout = if store.metadata = none then newLayout else metadata.layout := congrArg _ same
    split at layout
    · rename_i absent
      obtain ⟨rows, rowSizes, segments, segmentSizes⟩ := laid.unwritten absent
      exact Laid.putRows (fun _ => ⟨rows, rowSizes⟩) fun _ => ⟨segments, segmentSizes⟩
    · obtain ⟨packed, single⟩ := laid.loaded load
      exact Laid.putRows (fun same => packed (layout ▸ same)) fun different => single (layout ▸ different)
  | close | fail =>
    obtain ⟨metadata, load, -, ⟨-, rfl⟩ | ⟨-, rfl⟩⟩ := endStream_ok call
    · exact laid.meta load rfl
    · exact laid
  | expire expiredAt limit byteLimit =>
    obtain ⟨⟨result, paged⟩, expire, rfl⟩ := map_ok.mp call
    exact (laid.expireStream expire).1

theorem Gone.loaded (gone : store.Gone) (load : loadMeta store = .ok metadata) : metadata.state = .expired := by
  obtain ⟨⟨stored, found, expired⟩, -⟩ := gone
  rcases loadMeta_ok load with ⟨absent, -⟩ | same
  · cases found.symm.trans absent
  · obtain rfl := Option.some.inj (found.symm.trans same)
    exact expired

/-- A stream that is gone takes no chunk, whoever writes. -/
theorem Gone.writeChunks {newLayout : Option Nat} {chunks : List Bytes} (gone : store.Gone) :
    ∃ thrown, StreamDO.writeChunks newLayout runId chunks store = .error thrown := by
  cases call : StreamDO.writeChunks newLayout runId chunks store with
  | error thrown => exact ⟨thrown, rfl⟩
  | ok written =>
    obtain ⟨total, metadata, next, -, load, writable, -⟩ := writeChunks_ok call
    have opened := (assertWritable_ok writable).2
    rw [gone.loaded load] at opened
    cases opened

theorem foldl_erase_gone {ν : Type} {page : List Nat} :
    page.foldl (fun remaining key => remaining.erase key) (∅ : OffsetMap ν) = ∅ := by
  rw [Std.ExtTreeMap.eq_empty_iff_forall_contains]
  intro key
  rw [foldl_erase_contains, Std.ExtTreeMap.contains_empty, Bool.false_and]

/-- No call of any run brings a stream back. -/
theorem Gone.run {op : StreamOp} (gone : store.Gone) (call : op.run runId store = .ok after) : after.Gone := by
  cases op with
  | write newLayout chunks =>
    obtain ⟨written, write, rfl⟩ := map_ok.mp call
    obtain ⟨thrown, refused⟩ := @Gone.writeChunks runId store newLayout chunks gone
    cases write.symm.trans refused
  | close | fail =>
    obtain ⟨metadata, load, -, ended⟩ := endStream_ok call
    rw [gone.loaded load] at ended
    simp at ended
  | expire expiredAt limit byteLimit =>
    obtain ⟨⟨result, paged⟩, expire, rfl⟩ := map_ok.mp call
    obtain ⟨metadata, paged, next, -, expired, -, rfl, pages, -⟩ := expireStream_ok expire
    obtain ⟨-, chunks, chunkSizes, segments, segmentSizes⟩ := gone
    refine ⟨⟨next, rfl, expired⟩, ?_⟩
    unfold Paged at pages
    split at pages
    · obtain ⟨page, rfl, -⟩ := pages
      simp only [foldl_deleteSegment, segments, segmentSizes, foldl_erase_gone]
      exact ⟨chunks, chunkSizes, rfl, rfl⟩
    · obtain ⟨page, rfl, -⟩ := pages
      simp only [foldl_deleteChunk, chunks, chunkSizes, foldl_erase_gone]
      exact ⟨rfl, rfl, segments, segmentSizes⟩

end StreamStore

end CelldWorld
