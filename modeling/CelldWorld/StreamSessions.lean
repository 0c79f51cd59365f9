import CelldWorld.StreamReading

namespace CelldWorld

open StreamDO

/-- The chunks that a call appends. -/
def StreamOp.written : StreamOp → List Bytes
  | .write _ chunks => chunks
  | _ => []

/-- The call fits a stream that is created in a layout. -/
def StreamOp.creates (layout : Option Nat) : StreamOp → Prop
  | .write newLayout _ => newLayout = layout
  | _ => True

def StreamOp.isExpire : StreamOp → Bool
  | .expire .. => true
  | _ => false

/-- The layouts that a stream is created in. -/
def isStreamLayout (layout : Option Nat) : Prop := layout = none ∨ layout = some SEGMENT_LAYOUT

/-- An unexpired stream with what was written to it. -/
structure StreamStore.Wrote (layout : Option Nat) (written : List Bytes) (metadata : StreamMeta)
    (store : StreamStore) : Prop where
  load : loadMeta store = .ok metadata
  unexpired : metadata.state ≠ .expired
  count : metadata.count = written.length
  created : store.metadata ≠ none → metadata.state = .opened ∨ written ≠ [] → metadata.layout = layout
  holds : store.Holds layout written

namespace StreamDO
variable {store : StreamStore}

theorem putRows_metadata {layout : Option Nat} {startIndex : Nat} {chunks : List Bytes} :
    (putRows layout startIndex chunks store).metadata = store.metadata := by
  unfold putRows
  split
  · obtain ⟨segments, segmentSizes, same⟩ := @foldl_putSegment store (packSegments startIndex chunks)
    rw [same]
  · obtain ⟨rows, rowSizes, same⟩ := @foldl_putChunk store (chunks.zipIdx startIndex)
    rw [same]

theorem validateChunkBytes_ok {chunks : List Bytes} {bytes total : Nat}
    (valid : validateChunkBytes bytes chunks = .ok total) :
    ∀ chunk ∈ chunks, chunk.length ≤ MAX_STREAM_CHUNK_BYTES := by
  induction chunks generalizing bytes with
  | nil =>
    intro chunk member
    cases member
  | cons first chunks ih =>
    unfold validateChunkBytes at valid
    split at valid
    · cases valid
    split at valid
    · cases valid
    rename_i small _
    intro chunk member
    rcases List.mem_cons.mp member with rfl | later
    · exact Nat.le_of_not_lt small
    · exact ih valid chunk later

theorem validateStreamWriteChunks_ok {chunks : List Bytes} {total : Nat}
    (valid : validateStreamWriteChunks chunks = .ok total) :
    chunks ≠ [] ∧ ∀ chunk ∈ chunks, chunk.length ≤ MAX_STREAM_CHUNK_BYTES := by
  unfold validateStreamWriteChunks at valid
  split at valid
  · cases valid
  split at valid
  · cases valid
  rename_i filled _
  exact ⟨fun empty => filled (by rw [empty]; rfl), validateChunkBytes_ok valid⟩

end StreamDO

namespace StreamStore.Wrote
variable {layout : Option Nat} {written : List Bytes} {metadata : StreamMeta} {store after : StreamStore}
  {runId : String}

theorem start : Wrote layout [] emptyMeta {} where
  load := rfl
  unexpired same := by cases same
  count := rfl
  created stored := absurd rfl stored
  holds :=
    { small := fun chunk member => by cases member
      indexed := Nat.zero_le _
      packed := fun _ => ⟨[], .start, rfl⟩
      single := fun _ => .start }

theorem withMetadata {next : Option StreamMeta} (holds : store.Holds layout written) :
    Holds layout written { store with metadata := next } where
  small := holds.small
  indexed := holds.indexed
  packed segments := by
    obtain ⟨rows, packed, same⟩ := holds.packed segments
    exact ⟨rows, ⟨packed.contiguous, packed.sizes, packed.segments⟩, same⟩
  single chunks := ⟨(holds.single chunks).sizes, (holds.single chunks).chunks⟩

theorem unwritten (wrote : store.Wrote layout written metadata) (absent : store.metadata = none) :
    written = [] := by
  rcases loadMeta_ok wrote.load with ⟨-, rfl⟩ | stored
  · exact List.length_eq_zero_iff.mp wrote.count.symm
  · rw [absent] at stored
    cases stored

/-- A write of the metadata that ends the stream. -/
theorem ended {next : StreamMeta} (wrote : store.Wrote layout written metadata)
    (valid : validateMeta next = .ok next) (state : next.state ≠ .expired) (ending : next.state ≠ .opened)
    (count : next.count = metadata.count) (same : next.layout = metadata.layout) :
    Wrote layout written next { store with metadata := some next } where
  load := valid
  unexpired := state
  count := count.trans wrote.count
  created _ filled := by
    rcases filled with opened | filled
    · exact absurd opened ending
    · rw [same]
      exact wrote.created (fun absent => filled (wrote.unwritten absent)) (.inr filled)
  holds := withMetadata wrote.holds

/-- A write appends its chunks, in the layout that the stream was created in. -/
theorem write {newLayout : Option Nat} {chunks : List Bytes} {result : StreamWriteResult}
    (wrote : store.Wrote layout written metadata) (layouts : isStreamLayout layout)
    (creates : store.metadata = none → newLayout = layout)
    (call : StreamDO.writeChunks newLayout runId chunks store = .ok (result, after)) :
    ∃ next, Wrote layout (written ++ chunks) next after ∧ metadata.state = .opened ∧ next.state = .opened ∧
      next.ownerRunId = some runId ∧ chunks ≠ [] ∧ after.metadata = some next := by
  obtain ⟨total, stored, next, valid, load, writable, same, bounded, -, rfl⟩ := writeChunks_ok call
  obtain rfl : metadata = stored := Except.ok.inj (wrote.load.symm.trans load)
  obtain ⟨filled, small⟩ := validateStreamWriteChunks_ok valid
  have opened := (assertWritable_ok writable).2
  have laid : next.layout = layout := by
    rw [same]
    by_cases absent : store.metadata = none
    · exact (if_pos absent).trans (creates absent)
    · exact (if_neg absent).trans (wrote.created absent (.inl opened))
  have counted : next.count = written.length + chunks.length := by
    rw [same, ← wrote.count]
  have state : next.state = .opened := by rw [same]
  have metadata_eq : (putRows next.layout metadata.count chunks { store with metadata := some next }).metadata =
      some next := putRows_metadata
  have checked : validateMeta next = .ok next := by
    refine validateMeta_iff.mpr ⟨rfl, bounded, fun other member => ?_, by rw [same]; rfl⟩
    rw [laid] at member
    rcases layouts with rfl | rfl
    · cases member
    · exact (Option.some.inj member).symm
  have unexpired : next.state ≠ .expired := by
    rw [state]
    intro expired
    cases expired
  refine ⟨next, ?_, opened, state, by rw [same], filled, metadata_eq⟩
  refine ⟨?_, unexpired, by rw [counted, List.length_append], fun _ _ => laid, ?_⟩
  · rw [loadMeta, metadata_eq]
    exact checked
  · rw [laid, wrote.count]
    exact (withMetadata wrote.holds).putRows small (by omega)

/-- The first end of a stream keeps what it was written; a later one changes nothing. -/
theorem ends {ended : StreamMeta → StreamMeta} (wrote : store.Wrote layout written metadata)
    (kept : ended metadata = { metadata with
      ownerRunId := some runId, state := (ended metadata).state, error := (ended metadata).error })
    (state : (ended metadata).state = .closed ∨ (ended metadata).state = .errored)
    (valid : metadata.state = .opened → validateMeta (ended metadata) = .ok (ended metadata))
    (call : endStream ended runId store = .ok after) :
    ∃ next, Wrote layout written next after ∧ (∀ owner ∈ next.ownerRunId, owner = runId) ∧
      (metadata.state = .opened ∨ after = store ∧ next = metadata) := by
  obtain ⟨stored, load, owner, ending⟩ := endStream_ok call
  obtain rfl : metadata = stored := Except.ok.inj (wrote.load.symm.trans load)
  rcases ending with ⟨opened, rfl⟩ | ⟨-, rfl⟩
  · have unexpired : (ended metadata).state ≠ .expired := by rcases state with same | same <;> simp [same]
    have unopened : (ended metadata).state ≠ .opened := by rcases state with same | same <;> simp [same]
    have owned : (ended metadata).ownerRunId = some runId := congrArg StreamMeta.ownerRunId kept
    refine ⟨ended metadata, wrote.ended (valid opened) unexpired unopened (by rw [kept]) (by rw [kept]),
      fun owner member => ?_, .inl opened⟩
    rw [owned] at member
    exact (Option.some.inj member).symm
  · exact ⟨metadata, wrote, (assertOwner_ok owner).2, .inr ⟨rfl, rfl⟩⟩

/-- A call that expires nothing writes what it appends, or leaves an ended stream as it is. -/
theorem run {op : StreamOp} (wrote : store.Wrote layout written metadata) (layouts : isStreamLayout layout)
    (creates : store.metadata = none → op.creates layout) (unexpiring : op.isExpire = false)
    (call : op.run runId store = .ok after) :
    ∃ next, Wrote layout (written ++ op.written) next after ∧ (∀ owner ∈ next.ownerRunId, owner = runId) ∧
      (metadata.state = .opened ∨ after = store ∧ next = metadata ∧ op.written = []) := by
  have valid := loadMeta_valid wrote.load
  cases op with
  | write newLayout chunks =>
    obtain ⟨⟨result, after⟩, write, rfl⟩ := map_ok.mp call
    obtain ⟨next, wrote, opened, -, owned, -⟩ := wrote.write layouts creates write
    refine ⟨next, wrote, fun owner member => ?_, .inl opened⟩
    rw [owned] at member
    exact (Option.some.inj member).symm
  | close =>
    simp only [StreamOp.written, List.append_nil, and_true]
    refine wrote.ends rfl (.inl rfl) (fun opened => ?_) call
    obtain ⟨-, bounded, layouts, errors⟩ := validateMeta_iff.mp valid
    rw [opened] at errors
    exact validateMeta_iff.mpr ⟨rfl, bounded, layouts, errors⟩
  | fail normalized =>
    simp only [StreamOp.written, List.append_nil, and_true]
    refine wrote.ends rfl (.inr rfl) (fun _ => ?_) call
    obtain ⟨-, bounded, layouts, -⟩ := validateMeta_iff.mp valid
    exact validateMeta_iff.mpr ⟨rfl, bounded, layouts, rfl⟩
  | expire expiredAt limit byteLimit => cases unexpiring

end StreamStore.Wrote

/-- What a read delivers of the chunks that were written when it was answered; `written`
are those when it was asked. -/
structure StreamReadRequest.Delivers (request : StreamReadRequest) (written seen : List Bytes)
    (result : StreamReadResult) : Prop where
  chunks : result.chunks <+: seen.drop request.startIndex
  count : result.chunks.length ≤ request.maxChunks
  bytes : byteLength result.chunks ≤ request.maxBytes
  progress : 0 < request.maxChunks → request.startIndex < written.length → result.chunks ≠ []
  inRange : matchesRequestedRange request result = true

namespace StreamStore.Wrote
variable {layout : Option Nat} {written : List Bytes} {metadata : StreamMeta} {store : StreamStore}
  {request : StreamReadRequest} {timedOut : Bool}

/-- A snapshot of an unexpired stream never throws for its owner. -/
theorem readSnapshot (wrote : store.Wrote layout written metadata)
    (owner : assertOwner metadata request.runId = .ok ()) (budget : MAX_STREAM_CHUNK_BYTES ≤ request.maxBytes) :
    ∃ result, StreamDO.readSnapshot request timedOut store = .ok result ∧
      request.Delivers written written result ∧
      result.state = metadata.state := by
  have answer (chunks : List Bytes) (within : chunks <+: written.drop request.startIndex)
      (few : chunks.length ≤ request.maxChunks) (bytes : byteLength chunks ≤ request.maxBytes)
      (progress : 0 < request.maxChunks → request.startIndex < written.length → chunks ≠ []) :
      request.Delivers written written
        { startIndex := request.startIndex, tailIndex := (metadata.count : Int) - 1, chunks := chunks,
          state := metadata.state, timedOut := timedOut, error := metadata.error } := by
    refine ⟨within, few, bytes, progress, ?_⟩
    have length := within.length_le
    rw [List.length_drop] at length
    have filled : 0 < request.maxChunks → request.startIndex < written.length → chunks.length ≠ 0 :=
      fun positive inside empty => progress positive inside (List.length_eq_zero_iff.mp empty)
    have count := wrote.count
    simp only [matchesRequestedRange, Bool.not_eq_true', decide_eq_false_iff_not]
    omega
  unfold StreamDO.readSnapshot
  simp only [wrote.load, owner, bind, Except.bind, if_neg wrote.unexpired]
  by_cases positive : 0 < min request.maxChunks (metadata.count - request.startIndex)
  · have count := wrote.count
    have filled : written ≠ [] := by
      intro empty
      rw [empty] at count
      simp only [List.length_nil] at count
      omega
    have stored : metadata.layout = layout :=
      wrote.created (fun absent => filled (wrote.unwritten absent)) (.inr filled)
    obtain ⟨chunks, read, within, nonempty, bytes⟩ := readRows_holds wrote.holds positive budget
      (show request.startIndex + min request.maxChunks (metadata.count - request.startIndex) ≤
        written.length by omega)
    have length := within.length_le
    rw [List.length_take] at length
    rw [if_pos positive, stored, read]
    exact ⟨_, rfl, answer chunks (within.trans (List.take_prefix _ _)) (by omega) bytes fun _ _ => nonempty, rfl⟩
  · rw [if_neg positive]
    refine ⟨_, rfl, answer [] List.nil_prefix (Nat.zero_le _) (Nat.zero_le _) fun wanted inside => ?_, rfl⟩
    have count := wrote.count
    omega

end StreamStore.Wrote

/-- Calls of a run to its stream that expire nothing, with what they append. -/
inductive StreamWrites (layout : Option Nat) (runId : String) (store : StreamStore) (written : List Bytes) :
    StreamStore → List Bytes → Prop
  | start : StreamWrites layout runId store written store written
  | next {middle after : StreamStore} {seen : List Bytes} {op : StreamOp} :
      StreamWrites layout runId store written middle seen →
      op.creates layout → op.isExpire = false → op.run runId middle = .ok after →
      StreamWrites layout runId store written after (seen ++ op.written)

/-- A reader that resumes where its last read ended, among the writes to the stream. It
starts at any index; a read that waits takes its answer from the stream of a later moment. -/
inductive StreamSession (layout : Option Nat) (runId : String) (first : Nat) :
    StreamStore → List Bytes → List Bytes → Prop
  | start {store written} : StreamWrites layout runId {} [] store written →
      StreamSession layout runId first store written []
  | next {store written delivered later seen request timedOut result} :
      StreamSession layout runId first store written delivered →
      StreamWrites layout runId store written later seen →
      request.runId = runId → request.startIndex = first + delivered.length →
      readChunks request store later timedOut = .ok result →
      StreamSession layout runId first later seen (delivered ++ result.chunks)

/-- An unexpired stream that only its run has written. -/
def StreamStore.Owned (layout : Option Nat) (runId : String) (written : List Bytes) (store : StreamStore) :
    Prop :=
  ∃ metadata, store.Wrote layout written metadata ∧ ∀ owner ∈ metadata.ownerRunId, owner = runId

theorem StreamStore.Owned.start {layout : Option Nat} {runId : String} : Owned layout runId [] {} :=
  ⟨emptyMeta, .start, fun owner member => by cases member⟩

section
variable {layout : Option Nat} {runId : String} {store later : StreamStore} {written seen : List Bytes}

theorem StreamWrites.owned (writes : StreamWrites layout runId store written later seen)
    (layouts : isStreamLayout layout) (owned : store.Owned layout runId written) :
    later.Owned layout runId seen ∧ written <+: seen := by
  induction writes with
  | start => exact ⟨owned, List.prefix_rfl⟩
  | next _ creates unexpiring call ih =>
    obtain ⟨⟨metadata, wrote, -⟩, within⟩ := ih
    obtain ⟨next, wrote, owner, -⟩ := wrote.run layouts (fun _ => creates) unexpiring call
    exact ⟨⟨next, wrote, owner⟩, within.trans (List.prefix_append _ _)⟩

/-- A long poll delivers from the stream as it is when the poll answers. -/
theorem StreamStore.Owned.readChunks {request : StreamReadRequest} {timedOut : Bool}
    (owned : store.Owned layout runId written) (ended : later.Owned layout runId seen) (grown : written <+: seen)
    (caller : request.runId = runId) (valid : validateStreamReadRequest request = .ok ()) :
    ∃ result, StreamDO.readChunks request store later timedOut = .ok result ∧
      request.Delivers written seen result := by
  have checked := valid
  unfold validateStreamReadRequest at checked
  split at checked
  · cases checked
  split at checked
  · cases checked
  split at checked
  · cases checked
  split at checked
  · cases checked
  rename_i named _ _ budget
  obtain ⟨metadata, wrote, owner⟩ := owned
  obtain ⟨immediate, asked, delivers, -⟩ := @Wrote.readSnapshot layout written metadata store request false wrote
    (assertOwner_of named (caller ▸ owner)) (by omega)
  unfold StreamDO.readChunks
  simp only [valid, asked, bind, Except.bind]
  obtain ⟨more, rfl⟩ := grown
  split
  · refine ⟨immediate, rfl, delivers.chunks.trans ?_, delivers.count, delivers.bytes,
      delivers.progress, delivers.inRange⟩
    rw [List.drop_append]
    exact List.prefix_append _ _
  · obtain ⟨metadata', wrote', owner'⟩ := ended
    obtain ⟨result, answered, delivers', -⟩ :=
      @Wrote.readSnapshot layout (written ++ more) metadata' later request
      timedOut wrote' (assertOwner_of named (caller ▸ owner')) (by omega)
    refine ⟨result, answered, delivers'.chunks, delivers'.count, delivers'.bytes, fun wanted inside => ?_,
      delivers'.inRange⟩
    exact delivers'.progress wanted (by rw [List.length_append]; omega)

theorem StreamSession.owned {first : Nat} {delivered : List Bytes}
    (session : StreamSession layout runId first store written delivered) (layouts : isStreamLayout layout) :
    store.Owned layout runId written := by
  induction session with
  | start writes => exact (writes.owned layouts .start).1
  | next _ writes _ _ _ ih => exact (writes.owned layouts ih).1

/-- Resumed reads deliver a part of what was written, from the first index on. -/
theorem StreamSession.delivered_prefix {first : Nat} {delivered : List Bytes}
    (session : StreamSession layout runId first store written delivered) (layouts : isStreamLayout layout) :
    delivered <+: written.drop first := by
  induction session with
  | start => exact List.nil_prefix
  | @next store written delivered later seen request timedOut result earlier writes caller resumes read ih =>
    have owned := earlier.owned layouts
    obtain ⟨ended, grown⟩ := writes.owned layouts owned
    obtain ⟨⟨⟩, valid, -⟩ := bind_ok.mp read
    obtain ⟨answer, answered, delivers⟩ :=
      @StreamStore.Owned.readChunks layout runId store later written seen request
      timedOut owned ended grown caller valid
    obtain rfl : result = answer := Except.ok.inj (read.symm.trans answered)
    obtain ⟨more, rfl⟩ := grown
    obtain ⟨rest, remaining⟩ := ih
    have within : delivered ++ (rest ++ more.drop (first - written.length)) = (written ++ more).drop first := by
      rw [List.drop_append, ← remaining, List.append_assoc]
    obtain ⟨left, chunks⟩ := delivers.chunks
    rw [resumes, ← List.drop_drop, ← within, List.drop_left] at chunks
    refine ⟨left, ?_⟩
    rw [List.append_assoc, chunks, within]

end

/-- A stream delivers exactly what was written to it. A resuming reader has received a
contiguous part of the written chunks from its first index on, all of it once it has
reached the tail, so that readers of the two layouts receive the same sequence. Every
further read that the protocol allows succeeds within its bounds, with at least one chunk
if there is one, and the remote client accepts it. -/
theorem streamReads_exact {layout : Option Nat} {runId : String} {first : Nat} {store : StreamStore}
    {written delivered : List Bytes} (layouts : isStreamLayout layout)
    (session : StreamSession layout runId first store written delivered) :
    delivered <+: written.drop first ∧
      (written.length ≤ first + delivered.length → delivered = written.drop first) ∧
      (∀ layout' runId' store' delivered', isStreamLayout layout' →
        StreamSession layout' runId' first store' written delivered' →
        delivered <+: delivered' ∨ delivered' <+: delivered) ∧
      ∀ request later seen timedOut, StreamWrites layout runId store written later seen →
        request.runId = runId → validateStreamReadRequest request = .ok () →
        ∃ result, readChunks request store later timedOut = .ok result ∧
          request.Delivers written seen result := by
  have received := session.delivered_prefix layouts
  have owned := session.owned layouts
  refine ⟨received, fun reached => ?_, fun layout' runId' store' delivered' layouts' other => ?_,
    fun request later seen timedOut writes caller valid => ?_⟩
  · refine received.eq_of_length_le ?_
    rw [List.length_drop]
    omega
  · exact List.prefix_or_prefix_of_prefix received (other.delivered_prefix layouts')
  · obtain ⟨ended, grown⟩ := writes.owned layouts owned
    exact owned.readChunks ended grown caller valid

theorem streamReads_exact_resumed :
    ∃ store, StreamSession (some SEGMENT_LAYOUT) "run" 1 store [[1], [2, 3]] [[2, 3]] ∧
    ([[2, 3]] : List Bytes) = List.drop 1 [[1], [2, 3]] := by
  set store : StreamStore := putRows (some SEGMENT_LAYOUT) 0 [[1], [2, 3]]
    { metadata := some { count := 2, state := .opened, ownerRunId := some "run", layout := some SEGMENT_LAYOUT } }
    with stored
  have written : StreamWrites (some SEGMENT_LAYOUT) "run" {} [] store [[1], [2, 3]] :=
    StreamWrites.start.next (show (StreamOp.write (some SEGMENT_LAYOUT) [[1], [2, 3]]).creates _ from rfl) rfl rfl
  have read : readChunks ⟨"run", 1, 4, MAX_STREAM_CHUNK_BYTES, 0⟩ store store false =
      .ok ⟨1, 1, [[2, 3]], .opened, false, none⟩ := by
    rw [stored]
    decide +kernel
  have session : StreamSession (some SEGMENT_LAYOUT) "run" 1 store [[1], [2, 3]] [[2, 3]] :=
    (StreamSession.start written).next .start rfl rfl read
  exact ⟨store, session, (streamReads_exact (.inr rfl) session).2.1 (by decide)⟩

end CelldWorld
