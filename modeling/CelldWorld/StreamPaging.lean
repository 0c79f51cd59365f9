import CelldWorld.StreamPages

namespace CelldWorld

open StreamDO

namespace StreamStore
variable {store : StreamStore}

/-- Every key and size of the rows is one that the stream accepts. -/
structure Keyed (store : StreamStore) : Prop where
  chunks : ∀ key ∈ store.chunks, key ≤ MAX_STREAM_INDEX
  chunkSizes : ∀ key size, store.chunkSizes[key]? = some size → key ≤ MAX_STREAM_INDEX ∧
    size ≤ MAX_STREAM_CHUNK_BYTES
  segments : ∀ key ∈ store.segments, key ≤ MAX_STREAM_INDEX
  segmentSizes : ∀ key size, store.segmentSizes[key]? = some size →
    key ≤ MAX_STREAM_INDEX ∧ 1 ≤ size.count ∧ size.count ≤ MAX_SAFE_INTEGER ∧ size.bytes ≤ MAX_SAFE_INTEGER

/-- Stored content with valid metadata, keys and sizes, in the layout of the stream. A
payload row may lack its size row, and a size row its payload row. -/
structure WellFormed (store : StreamStore) : Prop extends Keyed store where
  load : ∃ metadata, loadMeta store = .ok metadata
  laid : ∀ metadata, loadMeta store = .ok metadata → store.OfLayout metadata.layout

/-- The run may expire the stream. -/
def OwnedBy (runId : String) (store : StreamStore) : Prop :=
  ∀ metadata, loadMeta store = .ok metadata → assertOwner metadata runId = .ok ()

theorem size_erase_lt {ν : Type} {rows : OffsetMap ν} {key : Nat} (stored : key ∈ rows) :
    (rows.erase key).size < rows.size := by
  have filled : rows.size ≠ 0 := fun empty =>
    (Std.ExtTreeMap.eq_empty_iff_size_eq_zero.mpr empty ▸ stored : key ∈ (∅ : OffsetMap ν)) |>
      Std.ExtTreeMap.not_mem_empty
  have shrunk := @Std.ExtTreeMap.size_erase _ _ _ rows _ key
  rw [if_pos (Std.ExtTreeMap.mem_iff_contains.mp stored)] at shrunk
  omega

theorem deleteChunk_rows {index : Nat} : (deleteChunk store index).rows ≤ store.rows ∧
    (index ∈ store.chunks ∨ index ∈ store.chunkSizes → (deleteChunk store index).rows < store.rows) := by
  have payload := @Std.ExtTreeMap.size_erase_le _ _ _ store.chunks _ index
  have size := @Std.ExtTreeMap.size_erase_le _ _ _ store.chunkSizes _ index
  simp only [deleteChunk, rows]
  refine ⟨by omega, fun stored => ?_⟩
  rcases stored with stored | stored
  · have deleted := size_erase_lt stored
    omega
  · have deleted := size_erase_lt stored
    omega

theorem deleteSegment_rows {start : Nat} : (deleteSegment store start).rows ≤ store.rows ∧
    (start ∈ store.segments ∨ start ∈ store.segmentSizes → (deleteSegment store start).rows < store.rows) := by
  have payload := @Std.ExtTreeMap.size_erase_le _ _ _ store.segments _ start
  have size := @Std.ExtTreeMap.size_erase_le _ _ _ store.segmentSizes _ start
  simp only [deleteSegment, rows]
  refine ⟨by omega, fun stored => ?_⟩
  rcases stored with stored | stored
  · have deleted := size_erase_lt stored
    omega
  · have deleted := size_erase_lt stored
    omega

theorem foldl_rows_le {delete : StreamStore → Nat → StreamStore} {page : List Nat}
    (deletes : ∀ store index, (delete store index).rows ≤ store.rows) :
    (page.foldl delete store).rows ≤ store.rows := by
  induction page generalizing store with
  | nil => exact Nat.le_refl _
  | cons index page ih => exact Nat.le_trans ih (deletes store index)

theorem foldl_rows_lt {delete : StreamStore → Nat → StreamStore} {first : Nat} {page : List Nat}
    (deletes : ∀ store index, (delete store index).rows ≤ store.rows)
    (deleted : (delete store first).rows < store.rows) :
    ((first :: page).foldl delete store).rows < store.rows :=
  Nat.lt_of_le_of_lt (@foldl_rows_le (delete store first) delete page deletes) deleted

end StreamStore

open StreamStore

namespace StreamDO
variable {runId : String} {store after : StreamStore} {limit byteLimit chunks bytes : Nat} {done : Bool}

theorem mem_of_head {ν : Type} {rows : OffsetMap ν} {row : Nat × ν} {listed : List (Nat × ν)}
    (head : rows.toList = row :: listed) : row.1 ∈ rows := by
  have stored : rows[row.1]? = some row.2 :=
    Std.ExtTreeMap.mem_toList_iff_getElem?_eq_some.mp (by rw [head]; exact .head _)
  exact Std.ExtTreeMap.mem_iff_isSome_getElem?.mpr (by rw [stored]; rfl)

theorem take_eq_cons {α : Type} {listed rest : List α} {first : α} {limit : Nat}
    (taken : listed.take limit = first :: rest) : ∃ more, listed = first :: more := by
  cases listed with
  | nil =>
    rw [List.take_nil] at taken
    cases taken
  | cons head more =>
    cases limit with
    | zero => cases taken
    | succ limit =>
      obtain ⟨rfl, -⟩ := List.cons.inj taken
      exact ⟨more, rfl⟩

/-- A page of chunks that is not the last one takes a row. -/
theorem expireChunkPage_progress (positive : 1 ≤ limit)
    (call : expireChunkPage limit byteLimit store = .ok ((chunks, bytes, done), after)) :
    done = true ∨ after.rows < store.rows := by
  have smaller (first : Nat) (rest : List Nat) (stored : first ∈ store.chunks ∨ first ∈ store.chunkSizes) :
      ((first :: rest).foldl deleteChunk store).rows < store.rows :=
    foldl_rows_lt (fun _ _ => deleteChunk_rows.1) (deleteChunk_rows.2 stored)
  unfold expireChunkPage at call
  simp only at call
  split at call
  · rename_i key payload _ head
    obtain ⟨index, valid, call⟩ := bind_ok.mp call
    obtain ⟨rest, listed⟩ := List.head?_eq_some_iff.mp head
    cases call
    obtain ⟨rfl, -⟩ := indexFromChunkKey_iff.mp valid
    exact .inr (smaller index [] (.inl (mem_of_head listed)))
  · obtain ⟨⟨page, paged⟩, fill, call⟩ := bind_ok.mp call
    cases call
    cases candidates : store.chunkSizes.toList.take (limit + 1) with
    | nil =>
      rw [candidates, List.take_nil] at fill
      cases fill
      exact .inl (by simp)
    | cons candidate candidates' =>
      obtain ⟨more, listed⟩ := take_eq_cons candidates
      obtain ⟨limit, rfl⟩ := Nat.exists_eq_add_of_le' positive
      rw [candidates, List.take_succ_cons] at fill
      unfold chunkPage at fill
      obtain ⟨index, valid, fill⟩ := bind_ok.mp fill
      obtain ⟨size, -, fill⟩ := bind_ok.mp fill
      obtain ⟨rfl, -⟩ := indexFromChunkSizeKey_iff.mp valid
      rw [if_neg (fun first => first.1 rfl)] at fill
      obtain ⟨taken, rest, -, rfl⟩ := chunkPage_ok fill
      exact .inr (smaller _ _ (.inr (mem_of_head listed)))

/-- One segment always makes progress. -/
theorem expireSegmentPage_progress
    (call : expireSegmentPage limit byteLimit store = .ok ((chunks, bytes, done), after)) :
    done = true ∨ after.rows < store.rows := by
  have smaller (first : Nat) (rest : List Nat) (stored : first ∈ store.segments ∨ first ∈ store.segmentSizes) :
      ((first :: rest).foldl deleteSegment store).rows < store.rows :=
    foldl_rows_lt (fun _ _ => deleteSegment_rows.1) (deleteSegment_rows.2 stored)
  unfold expireSegmentPage at call
  simp only at call
  split at call
  · rename_i key segment _ head
    obtain ⟨start, valid, call⟩ := bind_ok.mp call
    obtain ⟨rest, listed⟩ := List.head?_eq_some_iff.mp head
    cases call
    obtain ⟨rfl, -⟩ := startFromSegmentKey_iff.mp valid
    exact .inr (smaller start [] (.inl (mem_of_head listed)))
  · rename_i other
    obtain ⟨⟨page, counted, paged⟩, fill, call⟩ := bind_ok.mp call
    cases call
    cases candidates : store.segmentSizes.toList.take (limit + 1) with
    | nil =>
      rw [candidates] at fill
      cases fill
      have orphanless : store.segments = ∅ := by
        rw [← Std.ExtTreeMap.isEmpty_iff, ← Std.ExtTreeMap.isEmpty_toList, List.isEmpty_iff]
        cases first : store.segments.toList with
        | nil => rfl
        | cons row rows => exact (other row.1 row.2 candidates (by rw [first]; rfl)).elim
      exact .inl (by simp [orphanless])
    | cons candidate candidates' =>
      obtain ⟨more, listed⟩ := take_eq_cons candidates
      rw [candidates] at fill
      unfold segmentPage at fill
      obtain ⟨start, valid, fill⟩ := bind_ok.mp fill
      obtain ⟨size, sized, fill⟩ := bind_ok.mp fill
      obtain ⟨rfl, -⟩ := startFromSegmentKey_iff.mp valid
      obtain ⟨rfl, filled, -⟩ := validateSegmentSize_iff.mp sized
      rw [if_neg (fun first => first.1 rfl), List.nil_append, Nat.zero_add] at fill
      obtain ⟨⟨taken, rest, -, rfl⟩, -⟩ := segmentPage_ok (by exact filled) (by exact .inl (Nat.le_refl 1)) fill
      exact .inr (smaller _ _ (.inr (mem_of_head listed)))

theorem expireStream_progress {expiredAt : Nat} {limit byteLimit : Option Nat} {result : ExpireStreamResult}
    (call : expireStream runId expiredAt limit byteLimit store = .ok (result, after)) :
    result.done = true ∨ after.rows < store.rows := by
  unfold expireStream at call
  obtain ⟨metadata, -, call⟩ := bind_ok.mp call
  obtain ⟨_, -, call⟩ := bind_ok.mp call
  obtain ⟨⟨⟨chunks, bytes, done⟩, paged⟩, page, call⟩ := bind_ok.mp call
  have progress : done = true ∨ paged.rows < store.rows := by
    unfold expirePage at page
    split at page
    · exact expireSegmentPage_progress page
    · exact expireChunkPage_progress (boundedLimit_pos (by decide)) page
  simp only at call
  split at call
  · cases call
    exact .inl rfl
  · cases call
    exact progress

theorem chunkPage_of {candidates : List (Nat × Nat)} {page : List Nat} (valid : ∀ candidate ∈ candidates,
    candidate.1 ≤ MAX_STREAM_INDEX ∧ candidate.2 ≤ MAX_STREAM_CHUNK_BYTES) :
    ∃ paged, chunkPage byteLimit candidates page bytes = .ok paged := by
  induction candidates generalizing page bytes with
  | nil => exact ⟨_, rfl⟩
  | cons candidate candidates ih =>
    obtain ⟨key, size⟩ := valid candidate (.head _)
    have sized : validateChunkSize candidate.2 candidate.1 = .ok candidate.2 := if_neg (Nat.not_lt.mpr size)
    unfold chunkPage
    simp only [indexFromChunkSizeKey_iff.mpr ⟨rfl, key⟩, sized, bind, Except.bind]
    split
    · exact ⟨_, rfl⟩
    · exact ih fun later member => valid later (.tail _ member)

theorem segmentPage_of {candidates : List (Nat × SegmentSize)} {page : List Nat}
    (valid : ∀ candidate ∈ candidates,
    candidate.1 ≤ MAX_STREAM_INDEX ∧ 1 ≤ candidate.2.count ∧ candidate.2.count ≤ MAX_SAFE_INTEGER ∧
      candidate.2.bytes ≤ MAX_SAFE_INTEGER) :
    ∃ paged, segmentPage limit byteLimit candidates page chunks bytes = .ok paged := by
  induction candidates generalizing page chunks bytes with
  | nil => exact ⟨_, rfl⟩
  | cons candidate candidates ih =>
    obtain ⟨key, size⟩ := valid candidate (.head _)
    unfold segmentPage
    simp only [startFromSegmentKey_iff.mpr ⟨rfl, key⟩, validateSegmentSize_iff.mpr ⟨rfl, size⟩, bind, Except.bind]
    split
    · exact ⟨_, rfl⟩
    · exact ih fun later member => valid later (.tail _ member)

theorem mem_of_take {ν : Type} {rows : OffsetMap ν} {row : Nat × ν} {limit : Nat}
    (listed : row ∈ rows.toList.take limit) :
    rows[row.1]? = some row.2 :=
  Std.ExtTreeMap.mem_toList_iff_getElem?_eq_some.mp (List.mem_of_mem_take listed)

theorem expireChunkPage_of (formed : store.WellFormed) :
    ∃ page, expireChunkPage limit byteLimit store = .ok page := by
  unfold expireChunkPage
  simp only
  split
  · rename_i key payload _ head
    obtain ⟨rest, listed⟩ := List.head?_eq_some_iff.mp head
    rw [indexFromChunkKey_iff.mpr ⟨rfl, formed.chunks key (mem_of_head listed)⟩]
    exact ⟨_, rfl⟩
  · obtain ⟨paged, fill⟩ := @chunkPage_of byteLimit 0 ((store.chunkSizes.toList.take (limit + 1)).take limit) []
      fun row member => formed.chunkSizes _ _ (mem_of_take (List.mem_of_mem_take member))
    rw [fill]
    exact ⟨_, rfl⟩

theorem expireSegmentPage_of (formed : store.WellFormed) :
    ∃ page, expireSegmentPage limit byteLimit store = .ok page := by
  unfold expireSegmentPage
  simp only
  split
  · rename_i key segment _ head
    obtain ⟨rest, listed⟩ := List.head?_eq_some_iff.mp head
    rw [startFromSegmentKey_iff.mpr ⟨rfl, formed.segments key (mem_of_head listed)⟩]
    exact ⟨_, rfl⟩
  · obtain ⟨paged, fill⟩ := @segmentPage_of limit byteLimit 0 0 (store.segmentSizes.toList.take (limit + 1)) []
      fun row member => formed.segmentSizes _ _ (mem_of_take member)
    rw [fill]
    exact ⟨_, rfl⟩

/-- The expiry of well-formed content never throws for the run that owns it. -/
theorem expireStream_of {expiredAt : Nat} {limit byteLimit : Option Nat} (formed : store.WellFormed)
    (owned : store.OwnedBy runId) : ∃ result after,
      expireStream runId expiredAt limit byteLimit store = .ok (result, after) := by
  obtain ⟨metadata, load⟩ := formed.load
  have paged (limit byteLimit : Nat) : ∃ page, expirePage metadata.layout limit byteLimit store = .ok page := by
    unfold expirePage
    split
    · exact expireSegmentPage_of formed
    · exact expireChunkPage_of formed
  obtain ⟨⟨⟨chunks, bytes, done⟩, rest⟩, page⟩ := paged
    (boundedLimit limit DEFAULT_EXPIRE_CHUNK_LIMIT MAX_EXPIRE_CHUNK_LIMIT)
    (boundedLimit byteLimit DEFAULT_EXPIRE_BYTE_LIMIT MAX_EXPIRE_BYTE_LIMIT)
  unfold expireStream
  simp only [load, owned metadata load, page, bind, Except.bind]
  split
  · exact ⟨_, _, rfl⟩
  · exact ⟨_, _, rfl⟩

end StreamDO

end CelldWorld
