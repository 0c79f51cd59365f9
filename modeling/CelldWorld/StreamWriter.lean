import CelldWorld.StreamFormats

namespace CelldWorld

def MAX_STREAM_WRITE_CHUNKS : Nat := 32

/-- What the client reads of an error of a write. -/
structure WriteFailure where
  status : Option Int
  message : Option String
  deriving DecidableEq, Repr

/-- `batch exceeds \d+ chunks` at the start of a text. -/
def batchExceedsChunks (text : List Char) : Bool :=
  "batch exceeds ".toList.isPrefixOf text &&
    let rest := text.drop "batch exceeds ".length
    rest.takeWhile Char.isDigit ≠ [] && " chunks".toList.isPrefixOf (rest.dropWhile Char.isDigit)

/-- `maxChunks must be (?:an integer )?between` at the start of a text. -/
def maxChunksBetween (text : List Char) : Bool :=
  "maxChunks must be between".toList.isPrefixOf text ||
    "maxChunks must be an integer between".toList.isPrefixOf text

/-- An older worker rejects an oversized request before it touches the stream. -/
def isChunkLimitRejection (error : WriteFailure) : Bool :=
  error.status = some 400 &&
    match error.message with
    | none => false
    | some message => message.toList.tails.any fun text => batchExceedsChunks text || maxChunksBetween text

/-- A stub of a stream cell, with the limit that the fleet has advertised on its transport.
Only a remote stub has `streamChunkLimit` and `resetStreamChunkLimit`. -/
structure StreamStub where
  remote : Bool
  advertised : Option Nat
  deriving DecidableEq, Repr

/-- `stub.streamChunkLimit?.() ?? MAX_STREAM_WRITE_CHUNKS` -/
def StreamStub.streamChunkLimit (stub : StreamStub) : Nat :=
  if stub.remote then stub.advertised.getD MAX_STREAM_WRITE_CHUNKS else MAX_STREAM_WRITE_CHUNKS

/-- `stub.resetStreamChunkLimit?.()` -/
def StreamStub.resetStreamChunkLimit (stub : StreamStub) : StreamStub :=
  if stub.remote then { stub with advertised := none } else stub

/-- The limit in the header of a response, where it is a safe integer. -/
def StreamStub.recordStreamChunkLimit (stub : StreamStub) (header : Option Int) : StreamStub :=
  match header with
  | some advertised =>
    if MAX_STREAM_WRITE_CHUNKS < advertised then
      { stub with advertised := some (min advertised.toNat NEGOTIATED_STREAM_CHUNKS) }
    else { stub with advertised := none }
  | none => { stub with advertised := none }

/-- The first chunks that go into a batch after the `taken` chunks already in it. -/
def nextBatch (chunkLimit : Nat) : List Bytes → Nat → Nat → List Bytes
  | [], _, _ => []
  | chunk :: chunks, taken, batchBytes =>
    if taken < chunkLimit ∧ (taken = 0 ∨ batchBytes + chunk.length ≤ MAX_STREAM_BATCH_BYTES) then
      chunk :: nextBatch chunkLimit chunks (taken + 1) (batchBytes + chunk.length)
    else []

/-- How one `stub.writeChunks` ends. The headers are those of the responses that the
transport gets meanwhile, to this request and to others. -/
structure WriteReply where
  headers : List (Option Int)
  failure : Option WriteFailure
  deriving DecidableEq, Repr

inductive BatchFate
  | written
  | rejected
  | failed
  deriving DecidableEq, Repr

inductive WriteOutcome
  | pending
  | resolved
  | thrown (failure : WriteFailure)
  deriving DecidableEq, Repr

/-- A call of `writeChunksToStream`: where it is in its chunks, and the batches it has sent. -/
structure StreamWriter where
  next : Nat
  stub : StreamStub
  sent : List (List Bytes × BatchFate)
  outcome : WriteOutcome
  deriving DecidableEq, Repr

namespace StreamWriter

/-- The batch that the loop sends next. -/
def batch (chunks : List Bytes) (writer : StreamWriter) : List Bytes :=
  nextBatch writer.stub.streamChunkLimit (chunks.drop writer.next) 0 0

/-- What the transport has recorded when a reply is there. -/
def heard (reply : WriteReply) (writer : StreamWriter) : StreamStub :=
  reply.headers.foldl StreamStub.recordStreamChunkLimit writer.stub

/-- One turn of the loop. -/
def turn (chunks : List Bytes) (reply : WriteReply) (writer : StreamWriter) : StreamWriter :=
  let batch := writer.batch chunks
  let stub := writer.heard reply
  match reply.failure with
  | none =>
    { writer with next := writer.next + batch.length, stub, sent := writer.sent ++ [(batch, .written)] }
  | some failure =>
    if MAX_STREAM_WRITE_CHUNKS < batch.length ∧ isChunkLimitRejection failure = true then
      { writer with stub := stub.resetStreamChunkLimit, sent := writer.sent ++ [(batch, .rejected)] }
    else { writer with stub, sent := writer.sent ++ [(batch, .failed)], outcome := .thrown failure }

/-- The loop, as far as the replies to its requests go. -/
def loop (chunks : List Bytes) : List WriteReply → StreamWriter → StreamWriter
  | [], writer => if chunks.length ≤ writer.next then { writer with outcome := .resolved } else writer
  | reply :: replies, writer =>
    if chunks.length ≤ writer.next then { writer with outcome := .resolved }
    else match (writer.turn chunks reply).outcome with
    | .pending => loop chunks replies (writer.turn chunks reply)
    | _ => writer.turn chunks reply

end StreamWriter

variable {chunks : List Bytes} {chunkLimit taken batchBytes : Nat}

theorem nextBatch_prefix : nextBatch chunkLimit chunks taken batchBytes <+: chunks := by
  induction chunks generalizing taken batchBytes with
  | nil => exact List.prefix_rfl
  | cons chunk chunks ih =>
    unfold nextBatch
    split
    · exact (List.prefix_cons_inj chunk).mpr ih
    · exact List.nil_prefix

theorem nextBatch_length (room : taken ≤ chunkLimit) :
    taken + (nextBatch chunkLimit chunks taken batchBytes).length ≤ chunkLimit := by
  induction chunks generalizing taken batchBytes with
  | nil => exact room
  | cons chunk chunks ih =>
    unfold nextBatch
    split
    · rename_i fits
      have later := @ih (taken + 1) (batchBytes + chunk.length) fits.1
      rw [List.length_cons]
      omega
    · exact room

/-- A batch takes at least one chunk. -/
theorem nextBatch_filled (left : chunks ≠ []) (room : 0 < chunkLimit) : nextBatch chunkLimit chunks 0 0 ≠ [] := by
  cases chunks with
  | nil => exact absurd rfl left
  | cons chunk chunks =>
    rw [nextBatch, if_pos ⟨room, .inl rfl⟩]
    exact List.cons_ne_nil _ _

/-- The first chunk of a batch is within its bytes like every chunk, and the others are
checked before they are taken. -/
theorem nextBatch_bytes (small : ∀ chunk ∈ chunks, chunk.length ≤ MAX_STREAM_CHUNK_BYTES)
    (first : taken = 0 → batchBytes = 0) :
    ∃ total, validateChunkBytes batchBytes (nextBatch chunkLimit chunks taken batchBytes) = .ok total := by
  induction chunks generalizing taken batchBytes with
  | nil => exact ⟨batchBytes, rfl⟩
  | cons chunk chunks ih =>
    have chunkSmall := small chunk (List.mem_cons_self ..)
    unfold nextBatch
    split
    · rename_i fits
      have within : batchBytes + chunk.length ≤ MAX_STREAM_BATCH_BYTES := by
        rcases fits.2 with none | within
        · rw [first none]
          unfold MAX_STREAM_CHUNK_BYTES at chunkSmall
          unfold MAX_STREAM_BATCH_BYTES
          omega
        · exact within
      rw [validateChunkBytes, if_neg (Nat.not_lt_of_le chunkSmall), if_neg (Nat.not_lt_of_le within)]
      exact ih (fun other member => small other (List.mem_cons_of_mem _ member)) nofun
    · exact ⟨batchBytes, rfl⟩

namespace StreamStub

variable {stub : StreamStub} {header : Option Int}

/-- The limits that a client keeps to. -/
def Bounded (stub : StreamStub) : Prop :=
  MAX_STREAM_WRITE_CHUNKS ≤ stub.streamChunkLimit ∧ stub.streamChunkLimit ≤ NEGOTIATED_STREAM_CHUNKS

theorem resetStreamChunkLimit_limit : stub.resetStreamChunkLimit.streamChunkLimit = MAX_STREAM_WRITE_CHUNKS := by
  unfold resetStreamChunkLimit streamChunkLimit
  cases remote : stub.remote
  · simp [remote]
  · simp

theorem bounded_baseline (limit : stub.streamChunkLimit = MAX_STREAM_WRITE_CHUNKS) : stub.Bounded := by
  unfold Bounded
  rw [limit]
  decide

/-- Whatever a response advertises, the client keeps to the range. -/
theorem recordStreamChunkLimit_bounded : (stub.recordStreamChunkLimit header).Bounded := by
  have dropped : ({ stub with advertised := none } : StreamStub).Bounded := by
    exact bounded_baseline (by simp [streamChunkLimit])
  unfold recordStreamChunkLimit
  split
  · split
    · rename_i advertised larger
      unfold Bounded streamChunkLimit
      unfold MAX_STREAM_WRITE_CHUNKS at larger ⊢
      unfold NEGOTIATED_STREAM_CHUNKS
      dsimp only
      split
      · rw [Option.getD_some]
        omega
      · omega
    · exact dropped
  · exact dropped

end StreamStub

namespace StreamWriter

variable {writer : StreamWriter} {reply : WriteReply} {replies : List WriteReply}

/-- The chunks of the batches that were written. -/
def writtenChunks (sent : List (List Bytes × BatchFate)) : List Bytes :=
  sent.flatMap fun entry => if entry.2 = .written then entry.1 else []

/-- A batch that a stream cell accepts. -/
def Accepted (batch : List Bytes) : Prop :=
  (∃ total, validateStreamWriteChunks batch = .ok total) ∧ ∃ encoded, encodeStreamWriteBatch batch = .ok encoded

/-- Some batch was written between any two that were rejected. -/
def Spaced (sent : List (List Bytes × BatchFate)) : Prop :=
  ∀ before mid after first second, sent = before ++ (first, .rejected) :: (mid ++ (second, .rejected) :: after) →
    ∃ batch, (batch, .written) ∈ mid

/-- What holds of a call between two turns of its loop. -/
structure Sound (chunks : List Bytes) (writer : StreamWriter) : Prop where
  bounded : writer.stub.Bounded
  inside : writer.next ≤ chunks.length
  accepted : ∀ entry ∈ writer.sent, Accepted entry.1
  written : writtenChunks writer.sent = chunks.take writer.next
  spaced : Spaced writer.sent
  oversized : ∀ entry ∈ writer.sent, entry.2 = .rejected → MAX_STREAM_WRITE_CHUNKS < entry.1.length
  rested : writer.outcome = .pending → ∀ before after batch, writer.sent = before ++ (batch, .rejected) :: after →
    (∀ entry ∈ after, entry.2 ≠ .written) → writer.stub.streamChunkLimit = MAX_STREAM_WRITE_CHUNKS
  ended : writer.outcome = .resolved → writer.next = chunks.length
  failed : ∀ failure, writer.outcome = .thrown failure → ∃ before batch,
    writer.sent = before ++ [(batch, .failed)] ∧
    ¬ (MAX_STREAM_WRITE_CHUNKS < batch.length ∧ isChunkLimitRejection failure = true)

theorem heard_bounded (bounded : writer.stub.Bounded) : (writer.heard reply).Bounded := by
  unfold heard
  induction reply.headers using List.reverseRecOn with
  | nil => exact bounded
  | append_singleton headers header _ =>
    rw [List.foldl_append, List.foldl_cons, List.foldl_nil]
    exact StreamStub.recordStreamChunkLimit_bounded

theorem batch_length :
    (writer.batch chunks).length ≤ writer.stub.streamChunkLimit := by
  have length := @nextBatch_length (chunks.drop writer.next) writer.stub.streamChunkLimit 0 0 (Nat.zero_le _)
  rwa [Nat.zero_add] at length

theorem batch_filled (bounded : writer.stub.Bounded) (left : writer.next < chunks.length) :
    0 < (writer.batch chunks).length := by
  refine List.length_pos_iff.mpr (nextBatch_filled ?_ (Nat.lt_of_lt_of_le (by decide) bounded.1))
  intro none
  have beyond := List.drop_eq_nil_iff.mp none
  omega

theorem batch_slice : writer.batch chunks <+: chunks.drop writer.next := nextBatch_prefix

theorem batch_accepted (small : ∀ chunk ∈ chunks, chunk.length ≤ MAX_STREAM_CHUNK_BYTES)
    (bounded : writer.stub.Bounded)
    (left : writer.next < chunks.length) : Accepted (writer.batch chunks) := by
  have filled := @batch_filled chunks writer bounded left
  have few := Nat.le_trans (@batch_length chunks writer) bounded.2
  obtain ⟨total, bytes⟩ := @nextBatch_bytes (chunks.drop writer.next) writer.stub.streamChunkLimit 0 0
    (fun chunk member => small chunk (List.mem_of_mem_drop member)) fun _ => rfl
  have valid : validateStreamWriteChunks (writer.batch chunks) = .ok total := by
    rw [validateStreamWriteChunks, if_neg (by omega), if_neg (by omega)]
    exact bytes
  refine ⟨⟨total, valid⟩, ?_⟩
  rw [encodeStreamWriteBatch, valid]
  exact ⟨_, rfl⟩

/-- The entry that a turn adds is the only one that can break the spacing. -/
theorem Spaced.snoc {sent : List (List Bytes × BatchFate)} {entry : List Bytes × BatchFate} (spaced : Spaced sent)
    (rested : entry.2 = .rejected → ∀ before mid first, sent = before ++ (first, .rejected) :: mid →
      ∃ batch, (batch, .written) ∈ mid) : Spaced (sent ++ [entry]) := by
  intro before mid after first second same
  rcases List.eq_nil_or_concat after with rfl | ⟨earlier, last, rfl⟩
  · have parts : sent ++ [entry] = (before ++ (first, .rejected) :: mid) ++ [(second, .rejected)] := by
      rw [same, List.append_assoc, List.cons_append]
    obtain ⟨sentIs, entryIs⟩ := List.append_inj' parts rfl
    cases List.cons.inj entryIs |>.1
    exact rested rfl before mid first sentIs
  · have parts : sent ++ [entry] =
        (before ++ (first, .rejected) :: (mid ++ (second, .rejected) :: earlier)) ++ [last] := by
      rw [same, List.concat_eq_append]
      simp only [List.append_assoc, List.cons_append]
    exact spaced before mid earlier first second (List.append_inj' parts rfl).1

theorem writtenChunks_snoc {sent : List (List Bytes × BatchFate)} {entry : List Bytes × BatchFate} :
    writtenChunks (sent ++ [entry]) = writtenChunks sent ++ if entry.2 = .written then entry.1 else [] := by
  rw [writtenChunks, List.flatMap_append, List.flatMap_singleton]
  rfl

/-- A batch that was written is the slice that follows those written before. -/
theorem take_batch : chunks.take writer.next ++ writer.batch chunks =
    chunks.take (writer.next + (writer.batch chunks).length) := by
  rw [List.take_add]
  exact congrArg _ (List.prefix_iff_eq_take.mp batch_slice)

theorem next_batch_inside (inside : writer.next ≤ chunks.length) :
    writer.next + (writer.batch chunks).length ≤ chunks.length := by
  have slice := (@batch_slice chunks writer).length_le
  rw [List.length_drop] at slice
  omega

/-- A turn keeps what holds of the call. -/
theorem Sound.turn (small : ∀ chunk ∈ chunks, chunk.length ≤ MAX_STREAM_CHUNK_BYTES) (sound : Sound chunks writer)
    (pending : writer.outcome = .pending) (left : writer.next < chunks.length) :
    Sound chunks (writer.turn chunks reply) := by
  have bounded := @heard_bounded writer reply sound.bounded
  have accepted : ∀ fate, ∀ entry ∈ writer.sent ++ [(writer.batch chunks, fate)], Accepted entry.1 := by
    intro fate entry member
    rcases List.mem_append.mp member with earlier | last
    · exact sound.accepted entry earlier
    · cases List.mem_singleton.mp last
      exact batch_accepted small sound.bounded left
  -- An entry at the end that is not a rejection leaves the earlier rejections where they were.
  have split : ∀ {fate before after batch}, fate ≠ .rejected →
      writer.sent ++ [(writer.batch chunks, fate)] = before ++ (batch, .rejected) :: after →
      (writer.batch chunks, fate) ∈ after := by
    intro fate before after batch other same
    rcases List.eq_nil_or_concat after with rfl | ⟨earlier, last, rfl⟩
    · exact absurd (congrArg Prod.snd (List.cons.inj (List.append_inj' same rfl).2).1) other
    · have parts : writer.sent ++ [(writer.batch chunks, fate)] =
          (before ++ (batch, .rejected) :: earlier) ++ [last] := by
        rw [same, List.concat_eq_append, List.append_assoc, List.cons_append]
      rw [(List.cons.inj (List.append_inj' parts rfl).2).1, List.concat_eq_append]
      exact List.mem_append_right _ (List.mem_singleton_self _)
  unfold StreamWriter.turn
  cases reply.failure with
  | none =>
    dsimp only
    exact {
      bounded
      inside := next_batch_inside sound.inside
      accepted := accepted _
      written := by rw [writtenChunks_snoc, if_pos rfl, sound.written, take_batch]
      spaced := sound.spaced.snoc nofun
      oversized := fun entry member rejected => by
        rcases List.mem_append.mp member with earlier | last
        · exact sound.oversized entry earlier rejected
        · cases List.mem_singleton.mp last
          cases rejected
      rested := fun _ before after batch same none => absurd rfl (none _ (@split .written _ _ _ nofun same))
      ended := fun resolved => by rw [pending] at resolved; cases resolved
      failed := fun failure thrown => by rw [pending] at thrown; cases thrown }
  | some failure =>
    dsimp only
    split
    · rename_i refused
      -- A batch of more than the baseline was cut after a success, which recorded the limit.
      have earned : ∀ before mid first, writer.sent = before ++ (first, .rejected) :: mid →
          ∃ batch, (batch, .written) ∈ mid := by
        intro before mid first same
        refine Classical.byContradiction fun none => ?_
        have limit := sound.rested pending before mid first same (by
          rintro ⟨batch, fate⟩ member rfl
          exact none ⟨batch, member⟩)
        have length := @batch_length chunks writer
        omega
      exact {
        bounded := StreamStub.bounded_baseline StreamStub.resetStreamChunkLimit_limit
        inside := sound.inside
        accepted := accepted _
        written := by rw [writtenChunks_snoc, if_neg nofun, List.append_nil, sound.written]
        spaced := sound.spaced.snoc fun _ => earned
        oversized := fun entry member rejected => by
          rcases List.mem_append.mp member with earlier | last
          · exact sound.oversized entry earlier rejected
          · cases List.mem_singleton.mp last
            exact refused.1
        rested := fun _ _ _ _ _ _ => StreamStub.resetStreamChunkLimit_limit
        ended := fun resolved => by rw [pending] at resolved; cases resolved
        failed := fun failure thrown => by rw [pending] at thrown; cases thrown }
    · rename_i kept
      exact {
        bounded
        inside := sound.inside
        accepted := accepted _
        written := by rw [writtenChunks_snoc, if_neg nofun, List.append_nil, sound.written]
        spaced := sound.spaced.snoc nofun
        oversized := fun entry member rejected => by
          rcases List.mem_append.mp member with earlier | last
          · exact sound.oversized entry earlier rejected
          · cases List.mem_singleton.mp last
            cases rejected
        rested := nofun
        ended := nofun
        failed := fun other thrown => ⟨writer.sent, writer.batch chunks, rfl, by cases thrown; exact kept⟩ }

theorem Sound.resolve (sound : Sound chunks writer) (reached : chunks.length ≤ writer.next) :
    Sound chunks { writer with outcome := .resolved } :=
  { bounded := sound.bounded
    inside := sound.inside
    accepted := sound.accepted
    written := sound.written
    spaced := sound.spaced
    oversized := sound.oversized
    rested := nofun
    ended := fun _ => Nat.le_antisymm sound.inside reached
    failed := nofun }

/-- The loop keeps what holds of the call. -/
theorem Sound.loop (small : ∀ chunk ∈ chunks, chunk.length ≤ MAX_STREAM_CHUNK_BYTES) (sound : Sound chunks writer)
    (pending : writer.outcome = .pending) : Sound chunks (loop chunks replies writer) := by
  induction replies generalizing writer with
  | nil =>
    unfold StreamWriter.loop
    split
    · exact sound.resolve ‹_›
    · exact sound
  | cons reply replies ih =>
    unfold StreamWriter.loop
    split
    · exact sound.resolve ‹_›
    · rename_i left
      have turned := @Sound.turn chunks writer reply small sound pending (Nat.lt_of_not_le left)
      split
      · exact ih turned ‹_›
      · exact turned

theorem Sound.start {stub : StreamStub} (bounded : stub.Bounded) : Sound chunks ⟨0, stub, [], .pending⟩ where
  bounded := bounded
  inside := Nat.zero_le _
  accepted := nofun
  written := rfl
  spaced := by
    intro before mid after first second same
    simp at same
  oversized := nofun
  rested := by
    intro pending before after batch same
    simp at same
  ended := nofun
  failed := nofun

end StreamWriter

end CelldWorld
