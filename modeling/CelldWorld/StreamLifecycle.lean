import CelldWorld.StreamPaging
import CelldWorld.StreamSessions

namespace CelldWorld

open PackedRows StreamDO

/-- A call of an expiry to a stream cell. -/
structure ExpireStreamCall where
  expiredAt : Nat
  limit : Option Nat
  byteLimit : Option Nat
  deriving DecidableEq, Repr

/-- Expire a stream call by call. -/
def StreamDO.expireStreamCalls (runId : String) :
    List ExpireStreamCall → StreamStore → Except Thrown (List ExpireStreamResult × StreamStore)
  | [], store => .ok ([], store)
  | call :: calls, store => do
    let (result, store) ← expireStream runId call.expiredAt call.limit call.byteLimit store
    let (results, store) ← expireStreamCalls runId calls store
    .ok (result :: results, store)

/-- The layout that a call asks for. -/
def StreamOp.newLayout : StreamOp → Option Nat
  | .write newLayout _ => newLayout
  | _ => none

/-- Calls to one stream cell, of any callers and with any limits, in any order. -/
inductive StreamLife (store : StreamStore) : StreamStore → Prop
  | start : StreamLife store store
  | next {middle after : StreamStore} {caller : String} {op : StreamOp} : StreamLife store middle →
      isStreamLayout op.newLayout → op.run caller middle = .ok after → StreamLife store after

/-- What a stream was written, unless it is expired. -/
inductive StreamStore.Lived (written : List Bytes) (store : StreamStore) (metadata : StreamMeta) : Prop
  | kept {layout : Option Nat} : isStreamLayout layout → store.Wrote layout written metadata →
      Lived written store metadata
  | expired : loadMeta store = .ok metadata → metadata.state = .expired → Lived written store metadata

namespace StreamStore
variable {runId : String} {store after later : StreamStore} {metadata : StreamMeta} {written : List Bytes}

theorem foldl_erase_get {ν : Type} {rows : OffsetMap ν} {page : List Nat} {key : Nat} {value : ν}
    (stored : (page.foldl (fun remaining deleted => remaining.erase deleted) rows)[key]? = some value) :
    rows[key]? = some value := by
  induction page generalizing rows with
  | nil => exact stored
  | cons deleted page ih =>
    have remaining := ih stored
    rw [Std.ExtTreeMap.getElem?_erase] at remaining
    split at remaining
    · cases remaining
    · exact remaining

theorem foldl_erase_mem {ν : Type} {rows : OffsetMap ν} {page : List Nat} {key : Nat}
    (stored : key ∈ page.foldl (fun remaining deleted => remaining.erase deleted) rows) : key ∈ rows := by
  obtain ⟨value, found⟩ := Option.isSome_iff_exists.mp (Std.ExtTreeMap.mem_iff_isSome_getElem?.mp stored)
  exact Std.ExtTreeMap.mem_iff_isSome_getElem?.mpr (by rw [foldl_erase_get found]; rfl)

/-- An expiry only deletes rows. -/
theorem Keyed.expireStream {expiredAt : Nat} {limit byteLimit : Option Nat} {result : ExpireStreamResult}
    (keyed : store.Keyed)
    (expire : StreamDO.expireStream runId expiredAt limit byteLimit store = .ok (result, after)) :
    after.Keyed := by
  obtain ⟨metadata, paged, next, -, -, -, rfl, pages, -⟩ := expireStream_ok expire
  unfold Paged at pages
  split at pages
  · obtain ⟨page, rfl, -⟩ := pages
    simp only [foldl_deleteSegment]
    exact ⟨keyed.chunks, keyed.chunkSizes, fun key stored => keyed.segments key (foldl_erase_mem stored),
      fun key size stored => keyed.segmentSizes key size (foldl_erase_get stored)⟩
  · obtain ⟨page, rfl, -⟩ := pages
    simp only [foldl_deleteChunk]
    exact ⟨fun key stored => keyed.chunks key (foldl_erase_mem stored),
      fun key size stored => keyed.chunkSizes key size (foldl_erase_get stored),
      keyed.segments, keyed.segmentSizes⟩

/-- An expiry leaves the content well-formed, and its run can go on with it. -/
theorem WellFormed.expireStream {call : ExpireStreamCall} {result : ExpireStreamResult}
    (formed : store.WellFormed)
    (owned : store.OwnedBy runId)
    (expire : StreamDO.expireStream runId call.expiredAt call.limit call.byteLimit store = .ok (result, after)) :
    after.WellFormed ∧ after.OwnedBy runId := by
  have laid := (OfLayout.expireStream formed.laid expire).1
  have keyed := formed.toKeyed.expireStream expire
  obtain ⟨metadata, paged, next, load, expired, layout, rfl, pages, valid, owner⟩ := expireStream_ok expire
  have loads : loadMeta { paged with metadata := some next } = .ok next := valid
  have ownedAfter : OwnedBy runId { paged with metadata := some next } := by
    intro other load'
    obtain rfl := Except.ok.inj (loads.symm.trans load')
    obtain ⟨named, -⟩ := assertOwner_ok (owned metadata load)
    rcases owner with owner | rfl
    · refine assertOwner_of named fun other member => ?_
      rw [owner] at member
      exact (Option.some.inj member).symm
    · exact owned next load
  exact ⟨⟨keyed, ⟨next, loads⟩, fun other load => laid.loaded load⟩, ownedAfter⟩

/-- No call of an expiry throws. -/
theorem WellFormed.expireStreamCalls {calls : List ExpireStreamCall} (formed : store.WellFormed)
    (owned : store.OwnedBy runId) : ∃ results after,
      StreamDO.expireStreamCalls runId calls store = .ok (results, after) ∧ (store.Gone → after.Gone) := by
  induction calls generalizing store with
  | nil => exact ⟨[], store, rfl, id⟩
  | cons call calls ih =>
    obtain ⟨result, middle, expire⟩ :=
      @expireStream_of runId store call.expiredAt call.limit call.byteLimit formed owned
    obtain ⟨formed', owned'⟩ := formed.expireStream owned expire
    obtain ⟨results, after, rest, gone⟩ := ih formed' owned'
    refine ⟨result :: results, after, ?_, fun before => gone ?_⟩
    · simp only [StreamDO.expireStreamCalls, expire, rest, bind, Except.bind]
    · have op : (StreamOp.expire call.expiredAt call.limit call.byteLimit).run runId store = .ok middle :=
        map_ok.mpr ⟨_, expire, rfl⟩
      exact before.run op

/-- One call more than the stream has rows reaches the end of its expiry. -/
theorem WellFormed.expires {calls : List ExpireStreamCall} (formed : store.WellFormed)
    (owned : store.OwnedBy runId)
    (enough : store.rows < calls.length) : ∃ results after,
      StreamDO.expireStreamCalls runId calls store = .ok (results, after) ∧ after.Gone ∧
        ∃ result ∈ results, result.done = true := by
  induction calls generalizing store with
  | nil => exact absurd enough (Nat.not_lt_zero _)
  | cons call calls ih =>
    obtain ⟨result, middle, expire⟩ :=
      @expireStream_of runId store call.expiredAt call.limit call.byteLimit formed owned
    obtain ⟨formed', owned'⟩ := formed.expireStream owned expire
    rcases expireStream_progress expire with done | fewer
    · obtain ⟨results, after, rest, gone⟩ := @WellFormed.expireStreamCalls runId middle calls formed' owned'
      refine ⟨result :: results, after, ?_, gone ((OfLayout.expireStream formed.laid expire).2 done),
        result, .head _, done⟩
      simp only [StreamDO.expireStreamCalls, expire, rest, bind, Except.bind]
    · have remaining : middle.rows < calls.length := by
        rw [List.length_cons] at enough
        omega
      obtain ⟨results, after, rest, gone, last, member, done⟩ := ih formed' owned' remaining
      refine ⟨result :: results, after, ?_, gone, last, .tail _ member, done⟩
      simp only [StreamDO.expireStreamCalls, expire, rest, bind, Except.bind]

theorem Keyed.putSegment {row : Nat × List Bytes} (keyed : store.Keyed) (key : row.1 ≤ MAX_STREAM_INDEX)
    (filled : row.2 ≠ []) (count : row.2.length ≤ MAX_STREAM_INDEX)
    (small : ∀ chunk ∈ row.2, chunk.length ≤ MAX_STREAM_CHUNK_BYTES) : (StreamDO.putSegment store row).Keyed where
  chunks := keyed.chunks
  chunkSizes := keyed.chunkSizes
  segments other stored := by
    rcases Std.ExtTreeMap.mem_insert.mp stored with same | earlier
    · rwa [← Nat.compare_eq_eq.mp same]
    · exact keyed.segments other earlier
  segmentSizes other size stored := by
    have inserted : (if row.1 = other then some (sizeRow row).2 else store.segmentSizes[other]?) = some size := by
      rw [← stored]
      simp only [StreamDO.putSegment, Std.ExtTreeMap.getElem?_insert, Nat.compare_eq_eq]
      rfl
    split at inserted
    · rename_i same
      have bytes := byteLength_le small
      have positive := List.length_pos_of_ne_nil filled
      obtain rfl := Option.some.inj inserted
      simp only [sizeRow, MAX_SAFE_INTEGER, MAX_STREAM_INDEX, MAX_STREAM_CHUNK_BYTES] at bytes key count ⊢
      omega
    · exact keyed.segmentSizes other size inserted

theorem Keyed.putChunk {chunk : Nat × Bytes} (keyed : store.Keyed) (key : chunk.1 ≤ MAX_STREAM_INDEX)
    (small : chunk.2.length ≤ MAX_STREAM_CHUNK_BYTES) : (StreamDO.putChunk store chunk).Keyed where
  chunks other stored := by
    rcases Std.ExtTreeMap.mem_insert.mp stored with same | earlier
    · rwa [← Nat.compare_eq_eq.mp same]
    · exact keyed.chunks other earlier
  chunkSizes other size stored := by
    have inserted : (if chunk.1 = other then some chunk.2.length else store.chunkSizes[other]?) = some size := by
      rw [← stored]
      simp only [StreamDO.putChunk, Std.ExtTreeMap.getElem?_insert, Nat.compare_eq_eq]
    split at inserted
    · rename_i same
      obtain rfl := Option.some.inj inserted
      exact ⟨same ▸ key, small⟩
    · exact keyed.chunkSizes other size inserted
  segments := keyed.segments
  segmentSizes := keyed.segmentSizes

theorem Keyed.putSegments {rows : List (Nat × List Bytes)} (keyed : store.Keyed)
    (valid : ∀ row ∈ rows, row.1 ≤ MAX_STREAM_INDEX ∧ row.2 ≠ [] ∧ row.2.length ≤ MAX_STREAM_INDEX ∧
      ∀ chunk ∈ row.2, chunk.length ≤ MAX_STREAM_CHUNK_BYTES) : (rows.foldl StreamDO.putSegment store).Keyed := by
  induction rows generalizing store with
  | nil => exact keyed
  | cons row rows ih =>
    obtain ⟨key, filled, count, small⟩ := valid row (.head _)
    exact ih (keyed.putSegment key filled count small) fun later member => valid later (.tail _ member)

theorem Keyed.putChunks {chunks : List Bytes} {startIndex : Nat} (keyed : store.Keyed)
    (small : ∀ chunk ∈ chunks, chunk.length ≤ MAX_STREAM_CHUNK_BYTES)
    (indexed : startIndex + chunks.length ≤ MAX_STREAM_INDEX) :
    ((chunks.zipIdx startIndex).foldl (fun store (chunk, index) =>
      StreamDO.putChunk store (index, chunk)) store).Keyed := by
  induction chunks generalizing store startIndex with
  | nil => exact keyed
  | cons chunk chunks ih =>
    rw [List.length_cons] at indexed
    have put : Keyed (StreamDO.putChunk store (startIndex, chunk)) :=
      keyed.putChunk (show startIndex ≤ _ by omega) (small chunk (.head _))
    exact ih put (fun later member => small later (.tail _ member)) (by omega)

/-- The rows of a write have keys and sizes that the stream accepts. -/
theorem Keyed.putRows {layout : Option Nat} {chunks : List Bytes} {startIndex : Nat} (keyed : store.Keyed)
    (small : ∀ chunk ∈ chunks, chunk.length ≤ MAX_STREAM_CHUNK_BYTES)
    (indexed : startIndex + chunks.length ≤ MAX_STREAM_INDEX) :
    (StreamDO.putRows layout startIndex chunks store).Keyed := by
  unfold StreamDO.putRows
  split
  · obtain ⟨contiguous, packed⟩ := @packFrom_packs startIndex 0 [] chunks
    refine keyed.putSegments fun row member => ?_
    have bound := contiguous.key_le member
    rw [packed, List.nil_append] at bound
    refine ⟨by omega, bound.2.2, by omega, fun chunk within => small chunk ?_⟩
    rw [← List.nil_append chunks, ← packed]
    exact List.mem_flatMap.mpr ⟨row, member, within⟩
  · exact keyed.putChunks small indexed

theorem Keyed.run {op : StreamOp} (keyed : store.Keyed) (call : op.run runId store = .ok after) :
    after.Keyed := by
  cases op with
  | write newLayout chunks =>
    obtain ⟨⟨result, written⟩, write, rfl⟩ := map_ok.mp call
    obtain ⟨total, metadata, next, valid, -, -, same, bounded, -, rfl⟩ := writeChunks_ok write
    have unchanged : Keyed { store with metadata := some next } :=
      ⟨keyed.chunks, keyed.chunkSizes, keyed.segments, keyed.segmentSizes⟩
    rw [same] at bounded
    exact unchanged.putRows (validateStreamWriteChunks_ok valid).2 bounded
  | close | fail =>
    obtain ⟨metadata, -, -, ⟨-, rfl⟩ | ⟨-, rfl⟩⟩ := endStream_ok call
    · exact ⟨keyed.chunks, keyed.chunkSizes, keyed.segments, keyed.segmentSizes⟩
    · exact keyed
  | expire expiredAt limit byteLimit =>
    obtain ⟨⟨result, paged⟩, expire, rfl⟩ := map_ok.mp call
    exact keyed.expireStream expire

/-- A stream without metadata may be created in either layout. -/
theorem Laid.wrote {layout : Option Nat} (laid : store.Laid) (absent : store.metadata = none) :
    store.Wrote layout [] emptyMeta := by
  have fresh : store = {} := by
    obtain ⟨chunks, chunkSizes, segments, segmentSizes⟩ := laid.unwritten absent
    cases store
    simp only at absent chunks chunkSizes segments segmentSizes
    subst absent chunks chunkSizes segments segmentSizes
    rfl
  rw [fresh]
  exact .start

/-- A call to an unexpired stream, other than an expiry, appends what it writes, and a
stream that has ended stays as it is. -/
theorem Wrote.next {layout : Option Nat} {op : StreamOp} (wrote : store.Wrote layout written metadata)
    (laid : store.Laid)
    (layouts : isStreamLayout layout) (known : isStreamLayout op.newLayout) (unexpiring : op.isExpire = false)
    (call : op.run runId store = .ok after) : ∃ next, Lived (written ++ op.written) after next ∧
      (metadata.state = .opened ∨ after = store ∧ next = metadata) := by
  by_cases absent : store.metadata = none
  · obtain rfl := wrote.unwritten absent
    have same : metadata = emptyMeta :=
      Except.ok.inj (wrote.load.symm.trans (@Laid.wrote store none laid absent).load)
    have creates : op.creates op.newLayout := by
      cases op with
      | write newLayout chunks => rfl
      | _ => trivial
    obtain ⟨next, after_wrote, -⟩ := (laid.wrote absent).run known (fun _ => creates) unexpiring call
    exact ⟨next, .kept known after_wrote, .inl (by rw [same]; rfl)⟩
  · obtain ⟨next, after_wrote, -, ended⟩ :=
      wrote.run layouts (fun unwritten => absurd unwritten absent) unexpiring call
    exact ⟨next, .kept layouts after_wrote, ended.imp_right fun ended => ⟨ended.1, ended.2.1⟩⟩

/-- Only an expiry succeeds on an expired stream. -/
theorem expired_run {op : StreamOp} (load : loadMeta store = .ok metadata) (expired : metadata.state = .expired)
    (call : op.run runId store = .ok after) : op.isExpire = true := by
  cases op with
  | write newLayout chunks =>
    obtain ⟨written, write, rfl⟩ := map_ok.mp call
    obtain ⟨total, stored, next, -, load', writable, -⟩ := writeChunks_ok write
    obtain rfl := Except.ok.inj (load.symm.trans load')
    have opened := (assertWritable_ok writable).2
    rw [expired] at opened
    cases opened
  | close | fail =>
    obtain ⟨stored, load', -, ended⟩ := endStream_ok call
    obtain rfl := Except.ok.inj (load.symm.trans load')
    rw [expired] at ended
    simp at ended
  | expire expiredAt limit byteLimit => rfl

theorem Lived.load (lived : Lived written store metadata) : loadMeta store = .ok metadata := by
  cases lived with
  | kept _ wrote => exact wrote.load
  | expired load _ => exact load

/-- What a call leaves of a stream that was written. -/
theorem Lived.next {op : StreamOp} (lived : Lived written store metadata) (laid : store.Laid)
    (known : isStreamLayout op.newLayout) (call : op.run runId store = .ok after) : ∃ next,
      Lived (written ++ op.written) after next ∧ (next.state = .expired ∨ metadata.state ≠ .expired ∧
        (metadata.state = .opened ∨ after = store ∧ next = metadata)) := by
  cases expiring : op.isExpire with
  | true =>
    cases op with
    | expire expiredAt limit byteLimit =>
      obtain ⟨⟨result, paged⟩, expire, rfl⟩ := map_ok.mp call
      obtain ⟨stored, paged, next, -, expired, -, rfl, -, valid, -⟩ := expireStream_ok expire
      exact ⟨next, .expired valid expired, .inl expired⟩
    | _ => cases expiring
  | false =>
    cases lived with
    | expired load expired =>
      have expire := expired_run load expired call
      rw [expiring] at expire
      cases expire
    | kept layouts wrote =>
      obtain ⟨next, after_lived, ended⟩ := wrote.next laid layouts known expiring call
      exact ⟨next, after_lived, .inr ⟨wrote.unexpired, ended⟩⟩

end StreamStore

section
variable {store later : StreamStore} {metadata : StreamMeta} {written : List Bytes}

theorem StreamLife.trans {after : StreamStore} (life : StreamLife store later)
    (continues : StreamLife later after) :
    StreamLife store after := by
  induction continues with
  | start => exact life
  | next _ known call ih => exact ih.next known call

theorem StreamLife.laid (life : StreamLife store later) (laid : store.Laid) : later.Laid := by
  induction life with
  | start => exact laid
  | next _ _ call ih => exact ih.run call

theorem StreamLife.keyed (life : StreamLife store later) (keyed : store.Keyed) : later.Keyed := by
  induction life with
  | start => exact keyed
  | next _ _ call ih => exact ih.run call

/-- A stream that is not expired keeps what it was written and how it ended. -/
theorem StreamLife.lived (life : StreamLife store later) (laid : store.Laid)
    (lived : store.Lived written metadata) :
    ∃ seen next, later.Lived seen next ∧ (next.state = .expired ∨ metadata.state ≠ .expired ∧ written <+: seen ∧
      (metadata.state = .opened ∨ later = store ∧ next = metadata)) := by
  induction life with
  | start =>
    refine ⟨written, metadata, lived, ?_⟩
    by_cases expired : metadata.state = .expired
    · exact .inl expired
    · exact .inr ⟨expired, List.prefix_rfl, .inr ⟨rfl, rfl⟩⟩
  | @next middle after caller op earlier known call ih =>
    obtain ⟨seen, next, middle_lived, sofar⟩ := ih
    obtain ⟨next', after_lived, step⟩ := middle_lived.next (earlier.laid laid) known call
    refine ⟨seen ++ op.written, next', after_lived, ?_⟩
    rcases step with expired | ⟨unexpired, step⟩
    · exact .inl expired
    rcases sofar with expired | ⟨alive, within, sofar⟩
    · exact absurd expired unexpired
    refine .inr ⟨alive, within.trans (List.prefix_append _ _), ?_⟩
    rcases sofar with opened | ⟨rfl, rfl⟩
    · exact .inl opened
    · exact step

theorem StreamStore.Wrote.readRow {layout : Option Nat} {index : Nat}
    (wrote : store.Wrote layout written metadata)
    (inside : index < written.length) :
    readRows metadata.layout index 1 MAX_STREAM_CHUNK_BYTES store = .ok [written[index]] := by
  have filled : written ≠ [] := List.ne_nil_of_length_pos (Nat.zero_lt_of_lt inside)
  have stored : metadata.layout = layout :=
    wrote.created (fun absent => filled (wrote.unwritten absent)) (.inr filled)
  obtain ⟨chunks, read, within, nonempty, -⟩ := readRows_holds wrote.holds Nat.one_pos (Nat.le_refl _)
    (show index + 1 ≤ written.length from inside)
  rw [List.drop_eq_getElem_cons inside, List.take_succ_cons, List.take_zero] at within
  have whole : chunks = [written[index]] :=
    within.eq_of_length_le (Nat.succ_le_of_lt (List.length_pos_of_ne_nil nonempty))
  rw [stored, read, whole]

/-- Calls reach well-formed content only. -/
theorem StreamLife.wellFormed (life : StreamLife {} store) : store.WellFormed := by
  have keyed : StreamStore.Keyed {} :=
    ⟨fun key stored => by simp at stored, fun key size stored => by simp at stored,
      fun key stored => by simp at stored, fun key size stored => by simp at stored⟩
  obtain ⟨seen, next, lived, -⟩ := life.lived .start (.kept (.inl rfl) .start)
  exact ⟨life.keyed keyed, ⟨next, lived.load⟩, fun other load => (life.laid .start).loaded load⟩

end

/-- The life of a stream cell. Of a stream in any state that calls reach, a close or a
failure of the open stream records itself as the end, the first end stays until an expiry
replaces it, nothing is written after an end, and before an expiry the count never falls
and every chunk stays as it is. On any well-formed content a call of the expiry deletes a
row or is done, it is done only without rows, and one call more than there are rows gets
there. -/
theorem streamLifecycle {store later : StreamStore} (reach : StreamLife {} store)
    (continues : StreamLife store later) :
    (∃ metadata next, loadMeta store = .ok metadata ∧ loadMeta later = .ok next ∧
      (metadata.state = .opened → ∀ caller after,
        (closeStream caller store = .ok after →
          after = { store with metadata := some { metadata with ownerRunId := some caller, state := .closed } }) ∧
        ∀ error, failStream caller error store = .ok after →
          after = { store with
            metadata := some
              { metadata with ownerRunId := some caller, state := .errored, error := some error } }) ∧
      (metadata.state ≠ .opened → next.state = .expired ∨ metadata.state ≠ .expired ∧ later = store) ∧
      (metadata.state ≠ .opened → ∀ caller newLayout chunks, ∃ thrown,
        StreamDO.writeChunks newLayout caller chunks later = .error thrown) ∧
      (next.state ≠ .expired → metadata.count ≤ next.count ∧ ∀ index < metadata.count, ∃ chunk,
        readRows metadata.layout index 1 MAX_STREAM_CHUNK_BYTES store = .ok [chunk] ∧
          readRows next.layout index 1 MAX_STREAM_CHUNK_BYTES later = .ok [chunk])) ∧
      later.WellFormed ∧
      ∀ runId content, content.WellFormed →
        (∀ (call : ExpireStreamCall) result after,
          expireStream runId call.expiredAt call.limit call.byteLimit content = .ok (result, after) →
          (result.done = true ∨ after.rows < content.rows) ∧ (result.done = true → after.Rowless)) ∧
        (content.OwnedBy runId → ∀ calls : List ExpireStreamCall, content.rows < calls.length → ∃ results after,
          expireStreamCalls runId calls content = .ok (results, after) ∧ after.Rowless ∧
            ∃ result ∈ results, result.done = true) := by
  have laid := reach.laid .start
  have formed := (reach.trans continues).wellFormed
  refine ⟨?_, formed, fun runId content formed =>
    ⟨fun call result after expire => ?_, fun owned calls enough => ?_⟩⟩
  · obtain ⟨written, metadata, lived, -⟩ := reach.lived .start (.kept (.inl rfl) .start)
    obtain ⟨seen, next, later_lived, kept⟩ := continues.lived laid lived
    have load := later_lived.load
    refine ⟨metadata, next, lived.load, load, fun opened caller after => ⟨fun close => ?_, fun error fail => ?_⟩,
      fun ended => ?_, fun ended caller newLayout chunks => ?_, fun unexpired => ?_⟩
    · exact endStream_opened lived.load opened close
    · exact endStream_opened lived.load opened fail
    · exact kept.imp_right fun kept => ⟨kept.1, (kept.2.2.resolve_left ended).1⟩
    · cases call : StreamDO.writeChunks newLayout caller chunks later with
      | error thrown => exact ⟨thrown, rfl⟩
      | ok result =>
        obtain ⟨total, stored, next', -, load', writable, -⟩ := writeChunks_ok call
        obtain rfl := Except.ok.inj (load.symm.trans load')
        have opened := (assertWritable_ok writable).2
        rcases kept with expired | ⟨-, -, kept⟩
        · rw [expired] at opened
          cases opened
        · exact absurd ((kept.resolve_left ended).2 ▸ opened) ended
    · obtain ⟨alive, within, -⟩ := kept.resolve_left unexpired
      cases lived with
      | expired _ expired => exact absurd expired alive
      | kept layouts wrote =>
      cases later_lived with
      | expired _ expired => exact absurd expired unexpired
      | kept layouts' wrote' =>
      refine ⟨by rw [wrote.count, wrote'.count]; exact within.length_le, fun index inside => ?_⟩
      rw [wrote.count] at inside
      have same := within.getElem inside
      refine ⟨written[index], wrote.readRow inside, ?_⟩
      rw [wrote'.readRow (Nat.lt_of_lt_of_le inside within.length_le), same]
  · exact ⟨expireStream_progress expire, fun done =>
      ((StreamStore.OfLayout.expireStream formed.laid expire).2 done).2⟩
  · obtain ⟨results, after, expired, gone, done⟩ := formed.expires owned enough
    exact ⟨results, after, expired, gone.2, done⟩

/-- A written stream is closed and expires; the same stream fails, and a close that comes
after the failure changes nothing. -/
theorem streamLifecycle_closed :
    ∃ written store later failed : StreamStore, StreamLife {} store ∧ later.WellFormed ∧
    (∃ metadata, loadMeta store = .ok metadata ∧ metadata.state = .closed) ∧
    (∃ next, loadMeta later = .ok next ∧ next.state = .expired) ∧
    failStream "run" ⟨"TypeError", "not a function"⟩ written = .ok failed ∧
      closeStream "run" failed = .ok failed ∧
    failed = { written with metadata := some ⟨2, .errored, some "run", some ⟨"TypeError", "not a function"⟩,
      none, none, false, none⟩ } := by
  have written : StreamLife {} _ :=
    @StreamLife.next _ _ _ "run" (.write none [[1], [2, 3]]) .start (.inl rfl) rfl
  have closed : StreamLife {} _ := @StreamLife.next _ _ _ "run" .close written (.inl rfl) rfl
  have formed := (streamLifecycle closed
    (@StreamLife.next _ _ _ "run" (.expire 9 none none) .start (.inl rfl) rfl)).2.1
  obtain ⟨metadata, -, load, -, records, -⟩ := (streamLifecycle written .start).1
  obtain rfl := Except.ok.inj load
  exact ⟨_, _, _, _, closed, formed, ⟨_, rfl, rfl⟩, ⟨_, rfl, rfl⟩, rfl, rfl, (records rfl "run" _).2 _ rfl⟩

end CelldWorld
