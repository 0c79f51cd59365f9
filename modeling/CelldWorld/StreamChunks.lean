import Mathlib.Data.List.TakeWhile
import CelldWorld.RunsList
import CelldWorld.StreamClients

namespace CelldWorld

open StreamDO

/-- What `parseInt` skips first. -/
def isJsWhitespace (c : Char) : Bool :=
  c.toNat ∈ [0x9, 0xa, 0xb, 0xc, 0xd, 0x20, 0xa0, 0x1680, 0x2028, 0x2029, 0x202f, 0x205f, 0x3000, 0xfeff] ||
    decide (0x2000 ≤ c.toNat ∧ c.toNat ≤ 0x200a)

def decimalPrefix (negative : Bool) (text : List Char) : Option Int :=
  let digits := text.takeWhile Char.isDigit
  if digits = [] then none
  else some (if negative then -(Nat.ofDigitChars 10 digits 0 : Int) else Nat.ofDigitChars 10 digits 0)

/-- `Number.parseInt(text, 10)`, where none is NaN. -/
def parseDecimal (text : String) : Option Int :=
  match text.toList.dropWhile isJsWhitespace with
  | '-' :: rest => decimalPrefix true rest
  | '+' :: rest => decimalPrefix false rest
  | rest => decimalPrefix false rest

/-- The index that a cursor stands for. -/
def cursorIndex (cursor : Option String) : Option Nat :=
  match cursor with
  | none => some 0
  | some text =>
    if text = "" then some 0
    else match parseDecimal text with
      | none => none
      | some index => if index < 0 then none else some index.toNat

/-- The chunks of a page carry their indexes. -/
structure StreamChunksResponse where
  data : List (Bytes × Nat)
  cursor : Option String
  hasMore : Bool
  done : Bool
  deriving DecidableEq, Repr

/-- The page that an answer gives from an index on. -/
def chunksResponse (startIndex : Nat) (result : StreamReadResult) : StreamChunksResponse :=
  let nextIndex := startIndex + result.chunks.length
  let hasMore := decide ((nextIndex : Int) ≤ result.tailIndex)
  { data := result.chunks.zipIdx startIndex
    cursor := if hasMore then some (toString nextIndex) else none
    hasMore
    done := decide (result.state = .closed) }

def chunksRequest (runId : String) (stub : StreamStub) (requestedLimit startIndex : Nat) :
    StreamReadRequest :=
  ⟨runId, startIndex, min requestedLimit stub.readChunkLimit, MAX_STREAM_READ_BYTES, 0⟩

def getStreamChunks (runId : String) (stub : StreamStub) (limit : Option JsNumber) (cursor : Option String)
    (store : StreamStore) : Except (Thrown ⊕ StreamErrorData) StreamChunksResponse :=
  match (limit.getD (.finite MAX_STREAM_READ_CHUNKS)).safeInteger with
  | none => .error (.inl (.error "Stream chunk limit must be a positive safe integer"))
  | some requestedLimit =>
    if requestedLimit < 1 then .error (.inl (.error "Stream chunk limit must be a positive safe integer"))
    else
      match cursorIndex cursor with
      | none => .error (.inl (.error ("Invalid stream cursor: " ++ cursor.getD "")))
      | some startIndex =>
        match readChunks (chunksRequest runId stub requestedLimit.toNat startIndex) store store false with
        | .error thrown => .error (.inl thrown)
        | .ok result =>
          match throwTerminal result with
          | some error => .error (.inr error)
          | none => .ok (chunksResponse startIndex result)

/-- A client that follows the cursors, from the first page on, among any calls to the stream. -/
inductive PageRun (runId : String) : StreamStore → List Bytes → List (Bytes × Nat) → Option String → Prop
  | start {store written} : StreamCalls {} [] store written → PageRun runId store written [] none
  | calls {store written data cursor later seen} : PageRun runId store written data cursor →
      StreamCalls store written later seen → PageRun runId later seen data cursor
  | page {store written data cursor stub limit response} : PageRun runId store written data cursor →
      (cursor = none → data = []) → StreamStub.Bounded stub →
      getStreamChunks runId stub limit cursor store = .ok response →
      PageRun runId store written (data ++ response.data) response.cursor

/-- What a client holds of the stream, and the cursor that it goes on with. -/
structure PageSound (written : List Bytes) (data : List (Bytes × Nat)) (cursor : Option String) : Prop where
  held : data <+: written.zipIdx
  resumes : ∀ text ∈ cursor, text = toString data.length

theorem toDigits_digit {index : Nat} {c : Char} (member : c ∈ Nat.toDigits 10 index) : c.isDigit = true :=
  Nat.isDigit_of_mem_toDigits (by decide) (by decide) member

theorem toString_digits (index : Nat) : (toString index).toList = Nat.toDigits 10 index := by
  have text : toString index = String.ofList (Nat.toDigits 10 index) := Nat.repr_eq_ofList_toDigits
  rw [text, String.toList_ofList]

theorem decimalPrefix_digits (index : Nat) :
    decimalPrefix false (Nat.toDigits 10 index) = some (index : Int) := by
  have whole : (Nat.toDigits 10 index).takeWhile Char.isDigit = Nat.toDigits 10 index :=
    List.takeWhile_eq_self_iff.mpr fun c member => toDigits_digit member
  unfold decimalPrefix
  simp [whole, Nat.toDigits_ne_nil, Nat.ofDigitChars_ten_toDigits]

/-- `parseInt` does not skip a digit. -/
theorem digit_solid {c : Char} (digit : c.isDigit = true) : isJsWhitespace c = false := by
  have range : 48 ≤ c.toNat ∧ c.toNat ≤ 57 := by
    simpa [Char.isDigit, UInt32.le_iff_toNat_le] using digit
  simp only [isJsWhitespace, List.mem_cons, List.not_mem_nil, or_false, Bool.or_eq_false_iff,
    decide_eq_false_iff_not]
  omega

theorem parseDecimal_toString (index : Nat) : parseDecimal (toString index) = some (index : Int) := by
  unfold parseDecimal
  rw [toString_digits]
  cases text : Nat.toDigits 10 index with
  | nil => exact absurd text Nat.toDigits_ne_nil
  | cons first rest =>
    have digit : first.isDigit = true := toDigits_digit (by rw [text]; exact .head _)
    rw [List.dropWhile_cons_of_neg (by simp [digit_solid digit])]
    split
    · rename_i same
      obtain ⟨rfl, -⟩ := List.cons.inj same
      cases digit
    · rename_i same
      obtain ⟨rfl, -⟩ := List.cons.inj same
      cases digit
    · rw [← text]
      exact decimalPrefix_digits index

/-- A cursor that was handed out is read back. -/
theorem cursorIndex_toString (index : Nat) : cursorIndex (some (toString index)) = some index := by
  have named : toString index ≠ "" := by
    intro empty
    have digits := toString_digits index
    rw [empty] at digits
    exact Nat.toDigits_ne_nil digits.symm
  unfold cursorIndex
  simp only [named, if_false, parseDecimal_toString]
  simp

section
variable {runId : String} {store : StreamStore} {written : List Bytes} {metadata : StreamMeta}
  {data : List (Bytes × Nat)} {cursor : Option String} {stub : StreamStub} {limit : Option JsNumber}
  {response : StreamChunksResponse}

/-- The chunks after a part of the stream carry on with its indexes. -/
theorem zipIdx_continues {chunks : List Bytes} (held : data <+: written.zipIdx)
    (more : chunks <+: written.drop data.length) : data ++ chunks.zipIdx data.length <+: written.zipIdx := by
  obtain ⟨rest, remaining⟩ := more
  have short : data.length ≤ written.length := by
    have length := held.length_le
    rwa [List.length_zipIdx] at length
  have front : (written.take data.length).length = data.length := List.length_take_of_le short
  have parts : written = written.take data.length ++ (chunks ++ rest) := by
    rw [remaining, List.take_append_drop]
  have indexed : written.zipIdx = (written.take data.length).zipIdx ++ (chunks ++ rest).zipIdx data.length := by
    conv => lhs; rw [parts, List.zipIdx_append, front, Nat.zero_add]
  have same : data = (written.take data.length).zipIdx := by
    refine (List.prefix_of_prefix_length_le held ?_ ?_).eq_of_length ?_
    · rw [indexed]
      exact List.prefix_append _ _
    · rw [List.length_zipIdx, front]
    · rw [List.length_zipIdx, front]
  rw [indexed, List.zipIdx_append, ← List.append_assoc, ← same]
  exact List.prefix_append _ _

theorem getStreamChunks_ok (answers : getStreamChunks runId stub limit cursor store = .ok response) :
    ∃ requestedLimit startIndex result, 0 < requestedLimit ∧ cursorIndex cursor = some startIndex ∧
      readChunks (chunksRequest runId stub requestedLimit startIndex) store store false = .ok result ∧
      throwTerminal result = none ∧ response = chunksResponse startIndex result := by
  unfold getStreamChunks at answers
  split at answers
  · cases answers
  rename_i requestedLimit _
  split at answers
  · cases answers
  rename_i positive
  split at answers
  · cases answers
  rename_i startIndex index
  split at answers
  · cases answers
  rename_i result read
  split at answers
  · cases answers
  rename_i unthrown
  exact ⟨requestedLimit.toNat, startIndex, result, by omega, index, read, unthrown, (Except.ok.inj answers).symm⟩

/-- A page goes on where the pages before it have ended. -/
theorem PageSound.page (sound : PageSound written data cursor) (lived : store.Lived written metadata)
    (first : cursor = none → data = []) (bounded : stub.Bounded)
    (answers : getStreamChunks runId stub limit cursor store = .ok response) :
    PageSound written (data ++ response.data) response.cursor ∧
      (response.cursor = none ↔ data ++ response.data = written.zipIdx) ∧
      (response.data = [] → response.cursor = none) ∧ response.hasMore = response.cursor.isSome ∧
      (response.done = true ↔ metadata.state = .closed) := by
  obtain ⟨requestedLimit, startIndex, result, positive, index, read, unthrown, rfl⟩ := getStreamChunks_ok answers
  have resumes : startIndex = data.length := by
    cases cursor with
    | none =>
      rw [first rfl]
      exact (Option.some.inj index).symm
    | some text =>
      rw [sound.resumes text rfl, cursorIndex_toString] at index
      exact (Option.some.inj index).symm
  subst resumes
  have answered : (chunksRequest runId stub requestedLimit data.length).Answered written metadata result := by
    rcases readChunks_moment read with asked | ⟨asked, -⟩
    · exact lived.answered readBudget asked
    · exact lived.answered readBudget asked
  have unexpired : metadata.state ≠ .expired := by
    intro expired
    rw [throwTerminal, answered.state, expired] at unthrown
    cases unthrown
  have tail : result.tailIndex + 1 = written.length := answered.tail.resolve_right unexpired
  have held := zipIdx_continues sound.held answered.chunks
  have length := held.length_le
  rw [List.length_append, List.length_zipIdx, List.length_zipIdx] at length
  have more : (chunksResponse data.length result).cursor =
      if data.length + result.chunks.length < written.length then
        some (toString (data.length + result.chunks.length))
      else none := by
    simp only [chunksResponse]
    congr 1
    simp only [decide_eq_true_eq, eq_iff_iff]
    omega
  refine ⟨⟨held, fun text member => ?_⟩, ?_, fun none => ?_, ?_, ?_⟩
  · rw [more] at member
    split at member
    · rw [← Option.some.inj member, List.length_append]
      simp only [chunksResponse, List.length_zipIdx]
    · cases member
  · rw [more]
    constructor
    · intro ended
      split at ended
      · cases ended
      · refine held.eq_of_length_le ?_
        rw [List.length_append, List.length_zipIdx, List.length_zipIdx]
        omega
    · intro whole
      have same := congrArg List.length whole
      simp only [chunksResponse, List.length_append, List.length_zipIdx] at same
      rw [if_neg (by omega)]
  · have empty : result.chunks = [] := by
      have short := congrArg List.length none
      simpa [chunksResponse] using short
    have reached := answered.whole (Nat.lt_min.mpr ⟨positive, bounded.readChunkLimit⟩) empty unexpired
    have start : (chunksRequest runId stub requestedLimit data.length).startIndex = data.length := rfl
    rw [more, if_neg (by omega)]
  · simp only [chunksResponse]
    split
    · rename_i goes
      exact goes
    · rename_i ends
      exact Bool.eq_false_iff.mpr ends
  · simp only [chunksResponse, decide_eq_true_eq, answered.state]

theorem PageRun.sound (run : PageRun runId store written data cursor) :
    store.Laid ∧ ∃ metadata, store.Lived written metadata ∧ PageSound written data cursor := by
  induction run with
  | start calls =>
    obtain ⟨laid, metadata, lived⟩ := calls.start_lived
    exact ⟨laid, metadata, lived, List.nil_prefix, fun text member => by cases member⟩
  | calls _ calls ih =>
    obtain ⟨laid, metadata, lived, sound⟩ := ih
    obtain ⟨later_laid, next, later_lived, grows⟩ := calls.lived laid lived
    refine ⟨later_laid, next, later_lived, ?_, sound.resumes⟩
    obtain ⟨more, rfl⟩ := grows.appended
    rw [List.zipIdx_append]
    exact sound.held.trans (List.prefix_append _ _)
  | page _ first bounded answers ih =>
    obtain ⟨laid, metadata, lived, sound⟩ := ih
    exact ⟨laid, metadata, lived, (sound.page lived first bounded answers).1⟩

/-- The pages that a client gets by the cursors are the chunks of the stream in order,
each under its index. A page without a cursor completes what is written, and a page
without chunks has no cursor. -/
theorem streamPages_exact (run : PageRun runId store written data cursor) :
    ∃ metadata, loadMeta store = .ok metadata ∧ data <+: written.zipIdx ∧
      ∀ stub limit response, StreamStub.Bounded stub → (cursor = none → data = []) →
        getStreamChunks runId stub limit cursor store = .ok response →
        (response.cursor = none ↔ data ++ response.data = written.zipIdx) ∧
          (response.data = [] → response.cursor = none) ∧ response.hasMore = response.cursor.isSome ∧
          (response.done = true ↔ metadata.state = .closed) := by
  obtain ⟨laid, metadata, lived, sound⟩ := run.sound
  refine ⟨metadata, lived.load, sound.held, fun stub limit response bounded first answers => ?_⟩
  exact (sound.page lived first bounded answers).2

/-- Two pages of one chunk each. -/
theorem streamPages_exact_two : ∃ store, PageRun "run" store [[1], [2, 3]] [([1], 0), ([2, 3], 1)] none ∧
    [([1], 0), ([2, 3], 1)] <+: ([[1], [2, 3]] : List Bytes).zipIdx := by
  set store : StreamStore := putRows (some SEGMENT_LAYOUT) 0 [[1], [2, 3]]
    { metadata := some { count := 2, state := .opened, ownerRunId := some "run", layout := some SEGMENT_LAYOUT } }
    with stored
  have written : StreamCalls {} [] store [[1], [2, 3]] :=
    @StreamCalls.next {} [] {} store [] "run" (.write (some SEGMENT_LAYOUT) [[1], [2, 3]]) .start (.inr rfl) rfl
  have bounded : StreamStub.Bounded ⟨false, none⟩ := ⟨by decide, by decide⟩
  have first : getStreamChunks "run" ⟨false, none⟩ (some (.finite 1)) none store =
      .ok ⟨[([1], 0)], some "1", true, false⟩ := by
    rw [stored]
    decide +kernel
  have second : getStreamChunks "run" ⟨false, none⟩ none (some "1") store =
      .ok ⟨[([2, 3], 1)], none, false, false⟩ := by
    rw [stored]
    decide +kernel
  have one := (PageRun.start written).page (fun _ => rfl) bounded first
  have run := one.page (fun ended => by cases ended) bounded second
  obtain ⟨_, _, held, _⟩ := streamPages_exact run
  exact ⟨store, run, held⟩

end
end CelldWorld
