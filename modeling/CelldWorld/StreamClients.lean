import CelldWorld.StreamLifecycle
import CelldWorld.StreamWriter

namespace CelldWorld

open StreamDO

def MAX_STREAM_READ_CHUNKS : Nat := 32

/-- `stub.streamChunkLimit?.() ?? MAX_STREAM_READ_CHUNKS` -/
def StreamStub.readChunkLimit (stub : StreamStub) : Nat :=
  if stub.remote then stub.streamChunkLimit else MAX_STREAM_READ_CHUNKS

def streamExpired : StreamErrorData := ⟨"Error", "Stream has expired"⟩

/-- The error that the state of a stream is thrown as, if it is one. -/
def throwTerminal (result : StreamReadResult) : Option StreamErrorData :=
  match result.state with
  | .expired => some streamExpired
  | .errored => some (result.error.getD ⟨"Error", "Stream failed"⟩)
  | .opened | .closed => none

/-- How the stream that a client reads stands. A read that fails is told from the state of
the stream that is thrown. -/
inductive ReaderOutcome
  | reading
  | closed
  | errored (error : StreamErrorData)
  | failed (thrown : Thrown)
  deriving DecidableEq, Repr

structure StreamReader where
  nextIndex : Nat
  enqueued : List Bytes := []
  outcome : ReaderOutcome := .reading
  deriving DecidableEq, Repr

/-- The first index of a reader: a negative one counts back from the tail. -/
def firstIndex (startIndex : Int) (count : Nat) : Nat :=
  if startIndex < 0 then ((count : Int) + startIndex).toNat else startIndex.toNat

/-- `readFromStream`, up to the stream that it returns. -/
def readFromStream (runId : String) (startIndex : Int) (store : StreamStore) :
    Except (Thrown ⊕ StreamErrorData) StreamReader :=
  if startIndex < 0 then
    match readChunks ⟨runId, 0, 0, MAX_STREAM_READ_BYTES, 0⟩ store store false with
    | .error thrown => .error (.inl thrown)
    | .ok info =>
      match throwTerminal info with
      | some error => .error (.inr error)
      | none => .ok { nextIndex := (info.tailIndex + 1 + startIndex).toNat }
  else .ok { nextIndex := startIndex.toNat }

namespace StreamReader
variable (reader : StreamReader)

def request (runId : String) (stub : StreamStub) (streamLongPollMs : Nat) : StreamReadRequest :=
  ⟨runId, reader.nextIndex, stub.readChunkLimit, MAX_STREAM_READ_BYTES, streamLongPollMs⟩

/-- What `pull` does with an answer. One without chunks on an open stream is a timeout. -/
def received (result : StreamReadResult) : StreamReader :=
  if 0 < result.chunks.length then
    { reader with
      enqueued := reader.enqueued ++ result.chunks
      nextIndex := reader.nextIndex + result.chunks.length }
  else
    match throwTerminal result with
    | some error => { reader with outcome := .errored error }
    | none => if result.state = .closed then { reader with outcome := .closed } else reader

/-- One read of `pull`; `later` is the stream when its wait ends. -/
def pull (runId : String) (stub : StreamStub) (streamLongPollMs : Nat) (store later : StreamStore)
    (timedOut : Bool) : StreamReader :=
  match readChunks (reader.request runId stub streamLongPollMs) store later timedOut with
  | .error thrown => { reader with outcome := .failed thrown }
  | .ok result => reader.received result

end StreamReader

/-- Calls to one stream cell, of any callers, with what they append. -/
inductive StreamCalls (store : StreamStore) (written : List Bytes) : StreamStore → List Bytes → Prop
  | start : StreamCalls store written store written
  | next {middle after : StreamStore} {seen : List Bytes} {caller : String} {op : StreamOp} :
      StreamCalls store written middle seen → isStreamLayout op.newLayout → op.run caller middle = .ok after →
      StreamCalls store written after (seen ++ op.written)

/-- A client's reader among the calls to its stream, expiry and other runs' calls too;
`opened` is what was written when it was opened. -/
inductive ReaderRun (runId : String) (startIndex : Int) (opened : List Bytes) :
    StreamStore → List Bytes → StreamReader → Prop
  | opens {store reader} : StreamCalls {} [] store opened → readFromStream runId startIndex store = .ok reader →
      ReaderRun runId startIndex opened store opened reader
  | calls {store written reader later seen} : ReaderRun runId startIndex opened store written reader →
      StreamCalls store written later seen → ReaderRun runId startIndex opened later seen reader
  | pull {store written reader later seen stub streamLongPollMs timedOut} :
      ReaderRun runId startIndex opened store written reader → reader.outcome = .reading →
      StreamStub.Bounded stub → StreamCalls store written later seen →
      ReaderRun runId startIndex opened later seen (reader.pull runId stub streamLongPollMs store later timedOut)
  | lost {store written reader thrown} : ReaderRun runId startIndex opened store written reader →
      reader.outcome = .reading →
      ReaderRun runId startIndex opened store written { reader with outcome := .failed thrown }

/-- The stream can only have expired since its metadata was read, unless it was open. -/
structure StreamGrows (written : List Bytes) (metadata : StreamMeta) (seen : List Bytes) (next : StreamMeta) :
    Prop where
  appended : written <+: seen
  ended : metadata.state ≠ .opened → seen = written ∧ (next.state = .expired ∨ next = metadata)

section
variable {store later : StreamStore} {written seen : List Bytes} {metadata : StreamMeta}

theorem StreamGrows.refl : StreamGrows written metadata written metadata :=
  ⟨List.prefix_rfl, fun _ => ⟨rfl, .inr rfl⟩⟩

/-- Only a write on an open stream appends. -/
theorem StreamOp.written_nil {op : StreamOp} {caller : String} (load : loadMeta store = .ok metadata)
    (ended : metadata.state ≠ .opened) (call : op.run caller store = .ok later) : op.written = [] := by
  cases op with
  | write newLayout chunks =>
    obtain ⟨result, write, rfl⟩ := map_ok.mp call
    obtain ⟨total, stored, next, -, load', writable, -⟩ := writeChunks_ok write
    obtain rfl := Except.ok.inj (load.symm.trans load')
    exact absurd (assertWritable_ok writable).2 ended
  | close => rfl
  | fail normalized => rfl
  | expire expiredAt limit byteLimit => rfl

theorem StreamGrows.next {op : StreamOp} {caller : String} {middle after : StreamStore} {state : StreamMeta}
    (grows : StreamGrows written metadata seen state) (lived : middle.Lived seen state) (laid : middle.Laid)
    (known : isStreamLayout op.newLayout) (call : op.run caller middle = .ok after) :
    ∃ next, after.Lived (seen ++ op.written) next ∧ StreamGrows written metadata (seen ++ op.written) next := by
  obtain ⟨next, after_lived, step⟩ := lived.next laid known call
  refine ⟨next, after_lived, grows.appended.trans (List.prefix_append _ _), fun ended => ?_⟩
  obtain ⟨same, still⟩ := grows.ended ended
  have unopened : state.state ≠ .opened := by
    intro opened
    rcases still with expired | rfl
    · rw [opened] at expired
      cases expired
    · exact ended opened
  rw [StreamOp.written_nil lived.load unopened call, List.append_nil]
  refine ⟨same, ?_⟩
  rcases step with expired | ⟨unexpired, opened | ⟨-, rfl⟩⟩
  · exact .inl expired
  · exact absurd opened unopened
  · exact still

theorem StreamCalls.lived (calls : StreamCalls store written later seen) (laid : store.Laid)
    (lived : store.Lived written metadata) :
    later.Laid ∧ ∃ next, later.Lived seen next ∧ StreamGrows written metadata seen next := by
  induction calls with
  | start => exact ⟨laid, metadata, lived, .refl⟩
  | next _ known call ih =>
    obtain ⟨middle_laid, state, middle_lived, grows⟩ := ih
    exact ⟨middle_laid.run call, grows.next middle_lived middle_laid known call⟩

/-- What an answer says of the stream that it was taken from. -/
structure StreamReadRequest.Answered (request : StreamReadRequest) (written : List Bytes)
    (metadata : StreamMeta)
    (result : StreamReadResult) : Prop where
  chunks : result.chunks <+: written.drop request.startIndex
  state : result.state = metadata.state
  error : result.error = metadata.error
  tail : result.tailIndex + 1 = written.length ∨ metadata.state = .expired
  expired : metadata.state = .expired → result.chunks = []
  whole : 0 < request.maxChunks → result.chunks = [] → metadata.state ≠ .expired →
    written.length ≤ request.startIndex

theorem readSnapshot_ok {request : StreamReadRequest} {timedOut : Bool} {result : StreamReadResult}
    (load : loadMeta store = .ok metadata) (read : readSnapshot request timedOut store = .ok result) :
    assertOwner metadata request.runId = .ok () ∧ result.state = metadata.state ∧ result.error = metadata.error ∧
      result.tailIndex = (metadata.count : Int) - 1 ∧ (metadata.state = .expired → result.chunks = []) := by
  unfold readSnapshot at read
  obtain ⟨stored, load', read⟩ := bind_ok.mp read
  obtain rfl := Except.ok.inj (load.symm.trans load')
  obtain ⟨⟨⟩, owner, read⟩ := bind_ok.mp read
  refine ⟨owner, ?_⟩
  simp only at read
  by_cases expired : metadata.state = .expired
  · rw [if_pos expired, if_neg (Nat.lt_irrefl 0)] at read
    cases read
    exact ⟨rfl, rfl, rfl, fun _ => rfl⟩
  · rw [if_neg expired] at read
    split at read
    · obtain ⟨chunks, -, read⟩ := bind_ok.mp read
      cases read
      exact ⟨rfl, rfl, rfl, fun same => absurd same expired⟩
    · cases read
      exact ⟨rfl, rfl, rfl, fun same => absurd same expired⟩

theorem StreamStore.Lived.answered {request : StreamReadRequest} {timedOut : Bool} {result : StreamReadResult}
    (lived : store.Lived written metadata) (budget : MAX_STREAM_CHUNK_BYTES ≤ request.maxBytes)
    (read : readSnapshot request timedOut store = .ok result) : request.Answered written metadata result := by
  obtain ⟨owner, state, error, tail, none⟩ := readSnapshot_ok lived.load read
  cases lived with
  | kept layouts wrote =>
    obtain ⟨answer, asked, delivers, -⟩ := wrote.readSnapshot owner budget
    obtain rfl := Except.ok.inj (read.symm.trans asked)
    refine ⟨delivers.chunks, state, error, .inl ?_, none, fun positive empty _ => ?_⟩
    · rw [tail, wrote.count, Int.sub_add_cancel]
    · exact Nat.le_of_not_lt fun inside => delivers.progress positive inside empty
  | expired load expired =>
    refine ⟨?_, state, error, .inr expired, none, fun _ _ unexpired => absurd expired unexpired⟩
    rw [none expired]
    exact List.nil_prefix

/-- A snapshot of a stream throws only for a run that the stream does not belong to. -/
theorem StreamStore.Lived.refuses {request : StreamReadRequest} {timedOut : Bool} {thrown : Thrown}
    (lived : store.Lived written metadata) (budget : MAX_STREAM_CHUNK_BYTES ≤ request.maxBytes)
    (read : readSnapshot request timedOut store = .error thrown) :
    assertOwner metadata request.runId = .error thrown := by
  cases owner : assertOwner metadata request.runId with
  | error refused =>
    unfold readSnapshot at read
    simp only [lived.load, owner, bind, Except.bind] at read
    rw [Except.error.inj read]
  | ok =>
    cases lived with
    | kept layouts wrote =>
      obtain ⟨result, asked, -⟩ := @Wrote.readSnapshot _ _ _ _ request timedOut wrote owner budget
      rw [asked] at read
      cases read
    | expired load expired =>
      unfold readSnapshot at read
      simp only [load, owner, bind, Except.bind, if_pos expired, Nat.lt_irrefl, if_false] at read
      cases read

/-- An answer is a snapshot of the stream at one of the two moments. -/
theorem readChunks_moment {request : StreamReadRequest} {timedOut : Bool} {result : StreamReadResult}
    (read : readChunks request store later timedOut = .ok result) :
    readSnapshot request false store = .ok result ∨
      readSnapshot request timedOut later = .ok result ∧
        ∃ immediate, readSnapshot request false store = .ok immediate ∧ immediate.state = .opened := by
  unfold readChunks at read
  obtain ⟨⟨⟩, -, read⟩ := bind_ok.mp read
  obtain ⟨immediate, asked, read⟩ := bind_ok.mp read
  split at read
  · cases read
    exact .inl asked
  · rename_i waits
    push Not at waits
    exact .inr ⟨read, immediate, asked, waits.2.1⟩

end

/-- What a reader has handed out of the stream, from its first index on. -/
structure StreamReader.Sound (first : Nat) (written : List Bytes) (metadata : StreamMeta)
    (reader : StreamReader) :
    Prop where
  nextIndex : reader.nextIndex = first + reader.enqueued.length
  enqueued : reader.enqueued <+: written.drop first
  closed : reader.outcome = .closed → reader.enqueued = written.drop first ∧
    (metadata.state = .closed ∨ metadata.state = .expired)
  errored : ∀ error, reader.outcome = .errored error →
    error = streamExpired ∧ metadata.state = .expired ∨
      reader.enqueued = written.drop first ∧
        (metadata.state = .errored ∧ metadata.error = some error ∨ metadata.state = .expired)

namespace StreamReader.Sound
variable {first : Nat} {written seen : List Bytes} {metadata next : StreamMeta} {reader : StreamReader}

/-- An ended stream stays as it is, or expires. -/
theorem calls (sound : reader.Sound first written metadata) (grows : StreamGrows written metadata seen next) :
    reader.Sound first seen next where
  nextIndex := sound.nextIndex
  enqueued := by
    obtain ⟨more, rfl⟩ := grows.appended
    rw [List.drop_append]
    exact sound.enqueued.trans (List.prefix_append _ _)
  closed outcome := by
    obtain ⟨whole, ended⟩ := sound.closed outcome
    obtain ⟨rfl, still⟩ := grows.ended (by rcases ended with same | same <;> simp [same])
    rcases still with expired | rfl
    · exact ⟨whole, .inr expired⟩
    · exact ⟨whole, ended⟩
  errored error outcome := by
    have known := sound.errored error outcome
    have ended : metadata.state ≠ .opened := by
      rcases known with ⟨-, same⟩ | ⟨-, ⟨same, -⟩ | same⟩ <;> simp [same]
    obtain ⟨rfl, expired | rfl⟩ := grows.ended ended
    · rcases known with ⟨same, -⟩ | ⟨whole, -⟩
      · exact .inl ⟨same, expired⟩
      · exact .inr ⟨whole, .inr expired⟩
    · exact known

/-- A read that ends nothing. -/
theorem stays {outcome : ReaderOutcome} (sound : reader.Sound first written metadata)
    (unclosed : outcome ≠ .closed)
    (unerrored : ∀ error, outcome ≠ .errored error) :
    ({ reader with outcome } : StreamReader).Sound first written metadata where
  nextIndex := sound.nextIndex
  enqueued := sound.enqueued
  closed closes := absurd closes unclosed
  errored error throws := absurd throws (unerrored error)

/-- A reader without new chunks has all that an unexpired stream has. -/
theorem whole {request : StreamReadRequest} {result : StreamReadResult}
    (sound : reader.Sound first written metadata)
    (answered : request.Answered written metadata result) (resumes : request.startIndex = reader.nextIndex)
    (positive : 0 < request.maxChunks) (none : result.chunks = []) (unexpired : metadata.state ≠ .expired) :
    reader.enqueued = written.drop first := by
  refine sound.enqueued.eq_of_length_le ?_
  have reached := answered.whole positive none unexpired
  rw [resumes, sound.nextIndex] at reached
  rw [List.length_drop]
  omega

theorem received {request : StreamReadRequest} {result : StreamReadResult}
    (sound : reader.Sound first written metadata)
    (valid : validateMeta metadata = .ok metadata) (answered : request.Answered written metadata result)
    (reading : reader.outcome = .reading) (resumes : request.startIndex = reader.nextIndex)
    (positive : 0 < request.maxChunks) : (reader.received result).Sound first written metadata := by
  unfold StreamReader.received
  split
  · refine ⟨?_, ?_, fun outcome => ?_, fun error outcome => ?_⟩
    · rw [List.length_append, sound.nextIndex, Nat.add_assoc]
    · obtain ⟨rest, remaining⟩ := sound.enqueued
      have chunks := answered.chunks
      rw [resumes, sound.nextIndex, ← List.drop_drop, ← remaining, List.drop_left] at chunks
      rw [← remaining]
      exact (List.prefix_append_right_inj _).mpr chunks
    · rw [reading] at outcome
      cases outcome
    · rw [reading] at outcome
      cases outcome
  · rename_i empty
    have none : result.chunks = [] := List.length_eq_zero_iff.mp (Nat.eq_zero_of_not_pos empty)
    have whole (unexpired : metadata.state ≠ .expired) := sound.whole answered resumes positive none unexpired
    unfold throwTerminal
    rw [answered.state, answered.error]
    cases state : metadata.state with
    | expired =>
      refine ⟨sound.nextIndex, sound.enqueued, fun outcome => (by cases outcome), fun error outcome => ?_⟩
      cases outcome
      exact .inl ⟨rfl, state⟩
    | errored =>
      refine ⟨sound.nextIndex, sound.enqueued, fun outcome => (by cases outcome), fun error outcome => ?_⟩
      cases outcome
      obtain ⟨-, -, -, errors⟩ := validateMeta_iff.mp valid
      obtain ⟨failure, stored⟩ := Option.isSome_iff_exists.mp (errors.symm.trans (decide_eq_true state))
      refine .inr ⟨whole (by simp [state]), .inl ⟨state, ?_⟩⟩
      rw [stored, Option.getD_some]
    | closed =>
      refine ⟨sound.nextIndex, sound.enqueued, fun _ => ⟨whole (by simp [state]), .inl state⟩,
        fun error outcome => ?_⟩
      cases outcome
    | opened =>
      refine ⟨sound.nextIndex, sound.enqueued, fun outcome => ?_, fun error outcome => ?_⟩
      · rw [if_neg (by simp), reading] at outcome
        cases outcome
      · rw [if_neg (by simp), reading] at outcome
        cases outcome

end StreamReader.Sound

section
variable {runId : String} {startIndex : Int} {opened written seen : List Bytes} {store later : StreamStore}
  {metadata : StreamMeta} {reader : StreamReader} {stub : StreamStub} {streamLongPollMs : Nat} {timedOut : Bool}

theorem readBudget : MAX_STREAM_CHUNK_BYTES ≤ MAX_STREAM_READ_BYTES := by decide

theorem StreamStub.Bounded.readChunkLimit (bounded : stub.Bounded) : 0 < stub.readChunkLimit := by
  unfold StreamStub.readChunkLimit
  split
  · exact Nat.lt_of_lt_of_le (by decide) bounded.1
  · decide

/-- Opening takes the number of chunks from one answer of the stream. -/
theorem readFromStream_sound (lived : store.Lived opened metadata)
    (opens : readFromStream runId startIndex store = .ok reader) :
    reader.Sound (firstIndex startIndex opened.length) opened metadata ∧ reader.outcome = .reading := by
  have fresh (first : Nat) : ({ nextIndex := first } : StreamReader).Sound first opened metadata :=
    ⟨rfl, List.nil_prefix, fun same => (by cases same), fun error same => by cases same⟩
  unfold readFromStream at opens
  unfold firstIndex
  split at opens
  · rename_i counts
    split at opens
    · cases opens
    rename_i info read
    split at opens
    · cases opens
    rename_i unthrown
    cases opens
    have answered : StreamReadRequest.Answered ⟨runId, 0, 0, MAX_STREAM_READ_BYTES, 0⟩ opened metadata info := by
      rcases readChunks_moment read with asked | ⟨asked, -⟩
      · exact lived.answered readBudget asked
      · exact lived.answered readBudget asked
    have tail : info.tailIndex + 1 = opened.length := by
      rcases answered.tail with same | expired
      · exact same
      · rw [throwTerminal, answered.state, expired] at unthrown
        cases unthrown
    rw [if_pos counts, tail]
    exact ⟨fresh _, rfl⟩
  · rename_i counts
    cases opens
    rw [if_neg counts]
    exact ⟨fresh _, rfl⟩

/-- One pull, on a stream that goes on while it waits. -/
theorem StreamReader.Sound.pull {first : Nat} {next : StreamMeta}
    (sound : reader.Sound first written metadata)
    (lived : store.Lived written metadata) (ended : later.Lived seen next)
    (grows : StreamGrows written metadata seen next) (reading : reader.outcome = .reading)
    (bounded : stub.Bounded) :
    (reader.pull runId stub streamLongPollMs store later timedOut).Sound first seen next := by
  unfold StreamReader.pull
  split
  · exact (sound.calls grows).stays (by simp) (by simp)
  · rename_i result read
    rcases readChunks_moment read with asked | ⟨answers, -⟩
    · exact (sound.received (loadMeta_valid lived.load) (lived.answered readBudget asked) reading rfl
        bounded.readChunkLimit).calls grows
    · exact (sound.calls grows).received (loadMeta_valid ended.load) (ended.answered readBudget answers)
        reading rfl bounded.readChunkLimit

theorem StreamCalls.start_lived (calls : StreamCalls {} [] store written) :
    store.Laid ∧ ∃ metadata, store.Lived written metadata := by
  obtain ⟨laid, metadata, lived, -⟩ := calls.lived .start (.kept (.inl rfl) .start)
  exact ⟨laid, metadata, lived⟩

theorem ReaderRun.sound (run : ReaderRun runId startIndex opened store written reader) :
    store.Laid ∧ ∃ metadata, store.Lived written metadata ∧
      reader.Sound (firstIndex startIndex opened.length) written metadata := by
  induction run with
  | opens calls opens =>
    obtain ⟨laid, metadata, lived⟩ := calls.start_lived
    exact ⟨laid, metadata, lived, (readFromStream_sound lived opens).1⟩
  | calls _ calls ih =>
    obtain ⟨laid, metadata, lived, sound⟩ := ih
    obtain ⟨later_laid, next, later_lived, grows⟩ := calls.lived laid lived
    exact ⟨later_laid, next, later_lived, sound.calls grows⟩
  | pull _ reading bounded calls ih =>
    obtain ⟨laid, metadata, lived, sound⟩ := ih
    obtain ⟨later_laid, next, later_lived, grows⟩ := calls.lived laid lived
    exact ⟨later_laid, next, later_lived, sound.pull lived later_lived grows reading bounded⟩
  | lost _ _ ih =>
    obtain ⟨laid, metadata, lived, sound⟩ := ih
    exact ⟨laid, metadata, lived, sound.stays (by simp) (by simp)⟩

/-- A pull that hands out nothing and ends nothing has found the stream open, and all of
it handed out. -/
theorem StreamReader.Sound.idle {first : Nat} (sound : reader.Sound first written metadata)
    (laid : store.Laid)
    (lived : store.Lived written metadata) (calls : StreamCalls store written later seen)
    (reading : reader.outcome = .reading) (bounded : stub.Bounded)
    (idle : reader.pull runId stub streamLongPollMs store later timedOut = reader) :
    reader.enqueued = written.drop first ∧ metadata.state = .opened := by
  unfold StreamReader.pull at idle
  split at idle
  · rw [← idle] at reading
    cases reading
  rename_i result read
  have stays {written : List Bytes} {metadata : StreamMeta}
      (answered : (reader.request runId stub streamLongPollMs).Answered written metadata result) :
      result.chunks = [] ∧ metadata.state = .opened := by
    unfold StreamReader.received at idle
    split at idle
    · rename_i filled
      have grown := congrArg StreamReader.nextIndex idle
      simp only at grown
      omega
    · rename_i empty
      refine ⟨List.length_eq_zero_iff.mp (Nat.eq_zero_of_not_pos empty), ?_⟩
      unfold throwTerminal at idle
      rw [answered.state] at idle
      cases state : metadata.state with
      | opened => rfl
      | closed =>
        rw [state] at idle
        rw [← idle] at reading
        cases reading
      | errored =>
        rw [state] at idle
        rw [← idle] at reading
        cases reading
      | expired =>
        rw [state] at idle
        rw [← idle] at reading
        cases reading
  obtain ⟨-, next, ended, grows⟩ := calls.lived laid lived
  rcases readChunks_moment read with asked | ⟨answers, immediate, asked, immediately⟩
  · have answered := lived.answered readBudget asked
    obtain ⟨none, opened⟩ := stays answered
    exact ⟨sound.whole answered rfl bounded.readChunkLimit none (by simp [opened]), opened⟩
  · have answered := ended.answered readBudget answers
    obtain ⟨none, opened⟩ := stays answered
    have whole := (sound.calls grows).whole answered rfl bounded.readChunkLimit none (by simp [opened])
    refine ⟨sound.enqueued.eq_of_length_le ?_, ?_⟩
    · rw [whole, List.length_drop, List.length_drop]
      have shorter := grows.appended.length_le
      omega
    · rw [← (lived.answered readBudget asked).state, immediately]

/-- A pull fails only by its request, or as the stream belongs to another run. -/
theorem StreamReader.failed_pull {thrown : Thrown} {next : StreamMeta} (lived : store.Lived written metadata)
    (ended : later.Lived seen next) (reading : reader.outcome = .reading)
    (failed : (reader.pull runId stub streamLongPollMs store later timedOut).outcome = .failed thrown) :
    validateStreamReadRequest (reader.request runId stub streamLongPollMs) = .error thrown ∨
      assertOwner metadata runId = .error thrown ∨ assertOwner next runId = .error thrown := by
  unfold StreamReader.pull at failed
  split at failed
  · rename_i refused read
    obtain rfl := ReaderOutcome.failed.inj failed
    unfold StreamDO.readChunks at read
    cases valid : validateStreamReadRequest (reader.request runId stub streamLongPollMs) with
    | error invalid =>
      rw [valid] at read
      exact .inl (congrArg Except.error (Except.error.inj read))
    | ok =>
      simp only [valid, bind, Except.bind] at read
      split at read
      · rename_i invalid asked
        cases read
        exact .inr (.inl (lived.refuses readBudget asked))
      · split at read
        · cases read
        · exact .inr (.inr (ended.refuses readBudget read))
  · unfold StreamReader.received at failed
    split at failed
    · rw [reading] at failed
      cases failed
    · split at failed
      · cases failed
      · split at failed
        · cases failed
        · rw [reading] at failed
          cases failed

/-- A client's reader hands out the stream from its first index on. It closes only after
all of a closed stream, and throws the failure of a stream only after all its chunks. A
pull that does not wait at the tail of an open stream hands out more or ends, and fails
only by its request or as the stream belongs to another run. -/
theorem streamReader_exact (run : ReaderRun runId startIndex opened store written reader) :
    ∃ metadata, loadMeta store = .ok metadata ∧
      reader.enqueued <+: written.drop (firstIndex startIndex opened.length) ∧
      (reader.outcome = .closed → reader.enqueued = written.drop (firstIndex startIndex opened.length) ∧
        (metadata.state = .closed ∨ metadata.state = .expired)) ∧
      (∀ error, reader.outcome = .errored error →
        error = streamExpired ∧ metadata.state = .expired ∨
          reader.enqueued = written.drop (firstIndex startIndex opened.length) ∧
            (metadata.state = .errored ∧ metadata.error = some error ∨ metadata.state = .expired)) ∧
      (reader.outcome = .reading → ∀ stub streamLongPollMs later seen timedOut, StreamStub.Bounded stub →
        StreamCalls store written later seen →
        (reader.pull runId stub streamLongPollMs store later timedOut = reader →
          reader.enqueued = written.drop (firstIndex startIndex opened.length) ∧ metadata.state = .opened) ∧
        ∀ thrown, (reader.pull runId stub streamLongPollMs store later timedOut).outcome = .failed thrown →
          validateStreamReadRequest (reader.request runId stub streamLongPollMs) = .error thrown ∨
            ∃ found, (loadMeta store = .ok found ∨ loadMeta later = .ok found) ∧
              assertOwner found runId = .error thrown) := by
  obtain ⟨laid, metadata, lived, sound⟩ := run.sound
  refine ⟨metadata, lived.load, sound.enqueued, sound.closed, sound.errored, ?_⟩
  intro reading stub streamLongPollMs later seen timedOut bounded calls
  refine ⟨fun idle => sound.idle laid lived calls reading bounded idle, fun thrown failed => ?_⟩
  obtain ⟨-, next, ended, -⟩ := calls.lived laid lived
  rcases StreamReader.failed_pull lived ended reading failed with invalid | refused | refused
  · exact .inl invalid
  · exact .inr ⟨metadata, .inl lived.load, refused⟩
  · exact .inr ⟨next, .inr ended.load, refused⟩

/-- The last of two chunks, and the end of the stream. -/
theorem streamReader_exact_tail :
    ∃ store reader, ReaderRun "run" (-1) [[1], [2, 3]] store [[1], [2, 3]] reader ∧
    reader.outcome = .closed ∧ reader.enqueued = List.drop 1 [[1], [2, 3]] := by
  set metadata : StreamMeta :=
    { count := 2, state := .opened, ownerRunId := some "run", layout := some SEGMENT_LAYOUT }
  set store : StreamStore :=
    putRows (some SEGMENT_LAYOUT) 0 [[1], [2, 3]] { metadata := some metadata } with stored
  set closed : StreamStore := { store with metadata := some { metadata with state := .closed } } with ended
  have written : StreamCalls {} [] store [[1], [2, 3]] :=
    @StreamCalls.next {} [] {} store [] "run" (.write (some SEGMENT_LAYOUT) [[1], [2, 3]]) .start (.inr rfl) rfl
  have closes : StreamCalls store [[1], [2, 3]] closed [[1], [2, 3]] :=
    @StreamCalls.next store [[1], [2, 3]] store closed [[1], [2, 3]] "run" .close .start (.inl rfl) rfl
  have opens : readFromStream "run" (-1) store = .ok { nextIndex := 1 } := by
    rw [stored]
    decide +kernel
  have pulls : ({ nextIndex := 1 } : StreamReader).pull "run" ⟨false, none⟩ 1 store store false =
      { nextIndex := 2, enqueued := [[2, 3]] } := by
    rw [stored]
    decide +kernel
  have ends : ({ nextIndex := 2, enqueued := [[2, 3]] } : StreamReader).pull "run" ⟨false, none⟩ 1
    closed closed false =
      { nextIndex := 2, enqueued := [[2, 3]], outcome := .closed } := by
    rw [ended, stored]
    decide +kernel
  have bounded : StreamStub.Bounded ⟨false, none⟩ := ⟨by decide, by decide⟩
  have run := @ReaderRun.pull _ _ _ _ _ _ _ _ ⟨false, none⟩ 1 false (.opens written opens) rfl bounded .start
  rw [pulls] at run
  have last := @ReaderRun.pull _ _ _ _ _ _ _ _ ⟨false, none⟩ 1 false (run.calls closes) rfl bounded .start
  rw [ends] at last
  obtain ⟨_, _, _, whole, _⟩ := streamReader_exact last
  exact ⟨closed, _, last, rfl, (whole rfl).1⟩

end
end CelldWorld
