import CelldWorld.StreamReading
import CelldWorld.StreamPages
import Mathlib.Logic.Function.Basic

namespace CelldWorld

/-- A read of rows as the storage calls that it awaits, one after another. Each of them
sees the storage of the moment at which it completes. -/
inductive RowRead
  | answer (chunks : Except Thrown (List Bytes))
  | await (next : StreamStore → RowRead)

/-- The read when nothing is written while it runs. -/
def RowRead.run (store : StreamStore) : RowRead → Except Thrown (List Bytes)
  | .answer chunks => chunks
  | .await next => (next store).run store

namespace StreamDO

/-- What one storage call found for a key, with what the calls before it found. -/
def found {ν : Type} (rows : StreamStore → OffsetMap ν) (store : StreamStore) (collected : OffsetMap ν)
    (index : Nat) :
    OffsetMap ν :=
  match (rows store)[index]? with
  | none => collected
  | some row => collected.insert index row

/-- Multi-key read. It is split into several calls, so that any two keys may be read at
different moments. -/
def getMany {ν : Type} (rows : StreamStore → OffsetMap ν) (next : OffsetMap ν → RowRead) :
    List Nat → OffsetMap ν → RowRead
  | [], collected => next collected
  | index :: indexes, collected =>
    .await fun store => getMany rows next indexes (found rows store collected index)

/-- `readChunkRows` with its awaits. -/
def awaitChunkRows (startIndex available maxBytes : Nat) : RowRead :=
  let indexes := List.range' startIndex available
  getMany StreamStore.chunkSizes (fun chunkSizes =>
    match selectSizes { chunkSizes } maxBytes indexes 0 with
    | .error error => .answer (.error error)
    | .ok selected => getMany StreamStore.chunks (fun chunks => .answer (selected.mapM (readChunkRow { chunks })))
        (selected.map Prod.fst) ∅) indexes ∅

/-- The rest of `readSegmentRows` after its size rows are planned. -/
def awaitSegments (startIndex available maxBytes : Nat) (planned : List (Nat × SegmentSize)) : RowRead :=
  let endIndex := startIndex + available
  match checkCoverage true startIndex planned with
  | .error error => .answer (.error error)
  | .ok covered =>
    if covered < endIndex then
      .answer (.error (.error s!"Missing persisted stream segment at index {covered}"))
    else
      let selected := selectSegments maxBytes planned 0
      getMany StreamStore.segments
        (fun segments => .answer (loadSegments endIndex maxBytes { segments } selected startIndex 0))
        (selected.map Prod.fst) ∅

/-- `readSegmentRows` with its awaits: the list of the range, that of the containing
segment when the read starts inside one, and the segments. -/
def awaitSegmentRows (startIndex available maxBytes : Nat) : RowRead :=
  .await fun store =>
    let listed := (store.segmentSizes.toList.filter fun row =>
      startIndex ≤ row.1 ∧ row.1 < startIndex + available).take available
    match listed.mapM planSegment with
    | .error error => .answer (.error error)
    | .ok planned =>
      if planned.head?.map Prod.fst = some startIndex then awaitSegments startIndex available maxBytes planned
      else .await fun store =>
        match (store.segmentSizes.toList.filter (·.1 < startIndex + 1)).getLast? with
        | none => .answer (.error (.error s!"Missing persisted stream segment at index {startIndex}"))
        | some row =>
          match planSegment row with
          | .error error => .answer (.error error)
          | .ok containing => awaitSegments startIndex available maxBytes (containing :: planned)

def awaitRows (layout : Option Nat) (startIndex available maxBytes : Nat) : RowRead :=
  if layout = some SEGMENT_LAYOUT then awaitSegmentRows startIndex available maxBytes
  else awaitChunkRows startIndex available maxBytes

variable {store : StreamStore}

theorem getMany_run {ν : Type} {rows : StreamStore → OffsetMap ν} {next : OffsetMap ν → RowRead}
    {indexes : List Nat}
    {collected : OffsetMap ν} :
    (getMany rows next indexes collected).run store =
      (next (indexes.foldl (found rows store) collected)).run store := by
  induction indexes generalizing collected with
  | nil => rfl
  | cons index indexes ih => exact ih

theorem found_lookup {ν : Type} {rows : StreamStore → OffsetMap ν} {collected : OffsetMap ν} {index key : Nat}
    (same : collected[key]? = none ∨ collected[key]? = (rows store)[key]?) :
    (found rows store collected index)[key]? = none ∨
      (found rows store collected index)[key]? = (rows store)[key]? := by
  unfold found
  split
  · exact same
  · rename_i row stored
    rw [Std.ExtTreeMap.getElem?_insert]
    split
    · rename_i equal
      cases Nat.compare_eq_eq.mp equal
      exact .inr stored.symm
    · exact same

/-- A key that was asked for has what the storage holds under it. -/
theorem foldl_found {ν : Type} {rows : StreamStore → OffsetMap ν} {indexes : List Nat}
    {collected : OffsetMap ν} {key : Nat}
    (same : collected[key]? = none ∨ collected[key]? = (rows store)[key]?)
    (asked : key ∈ indexes ∨ collected[key]? = (rows store)[key]?) :
    (indexes.foldl (found rows store) collected)[key]? = (rows store)[key]? := by
  induction indexes generalizing collected with
  | nil =>
    rcases asked with member | held
    · cases member
    · exact held
  | cons index indexes ih =>
    refine ih (found_lookup same) ?_
    by_cases equal : index = key
    · right
      unfold found
      subst equal
      split
      · rename_i absent
        rcases same with missing | held
        · rw [missing, absent]
        · exact held
      · rename_i row stored
        rw [Std.ExtTreeMap.getElem?_insert, if_pos (Nat.compare_eq_eq.mpr rfl), stored]
    · rcases asked with member | held
      · exact .inl ((List.mem_cons.mp member).resolve_left (Ne.symm equal))
      · right
        unfold found
        split
        · exact held
        · rw [Std.ExtTreeMap.getElem?_insert, if_neg (fun same => equal (Nat.compare_eq_eq.mp same))]
          exact held

theorem selectSizes_congr {few : StreamStore} {maxBytes bytes : Nat} {indexes : List Nat}
    (same : ∀ index ∈ indexes, few.chunkSizes[index]? = store.chunkSizes[index]?) :
    selectSizes few maxBytes indexes bytes = selectSizes store maxBytes indexes bytes := by
  induction indexes generalizing bytes with
  | nil => rfl
  | cons index indexes ih =>
    have later : ∀ bytes, selectSizes few maxBytes indexes bytes = selectSizes store maxBytes indexes bytes :=
      fun _ => ih fun other member => same other (List.mem_cons_of_mem _ member)
    simp only [selectSizes, same index (List.mem_cons_self ..), later]

theorem mapM_congr_mem {α β : Type} {left right : α → Except Thrown β} {list : List α}
    (same : ∀ element ∈ list, left element = right element) : list.mapM left = list.mapM right := by
  induction list with
  | nil => rfl
  | cons head tail ih =>
    rw [List.mapM_cons, List.mapM_cons, same head (List.mem_cons_self ..),
      ih fun element member => same element (List.mem_cons_of_mem _ member)]

theorem loadSegments_congr {few : StreamStore} {endIndex maxBytes expected bytes : Nat}
    {selected : List (Nat × SegmentSize)}
    (same : ∀ start ∈ selected.map Prod.fst, few.segments[start]? = store.segments[start]?) :
    loadSegments endIndex maxBytes few selected expected bytes =
      loadSegments endIndex maxBytes store selected expected bytes := by
  induction selected generalizing expected bytes with
  | nil => rfl
  | cons segment selected ih =>
    have later : ∀ expected bytes, loadSegments endIndex maxBytes few selected expected bytes =
        loadSegments endIndex maxBytes store selected expected bytes :=
      fun _ _ => ih fun start member => same start (List.mem_cons_of_mem _ member)
    simp only [loadSegments, same segment.1 (List.mem_cons_self ..), later]

theorem awaitChunkRows_run {startIndex available maxBytes : Nat} :
    (awaitChunkRows startIndex available maxBytes).run store =
      readChunkRows startIndex available maxBytes store := by
  unfold awaitChunkRows readChunkRows
  rw [getMany_run, selectSizes_congr fun index member => foldl_found (.inl rfl) (.inl member)]
  cases selectSizes store maxBytes (List.range' startIndex available) 0 with
  | error error => rfl
  | ok selected =>
    rw [getMany_run]
    refine mapM_congr_mem fun row member => ?_
    unfold readChunkRow
    rw [foldl_found (.inl rfl) (.inl (List.mem_map_of_mem member))]

theorem awaitSegments_run {startIndex available maxBytes : Nat} {planned : List (Nat × SegmentSize)} :
    (awaitSegments startIndex available maxBytes planned).run store = (do
      let covered ← checkCoverage true startIndex planned
      if covered < startIndex + available then
        .error (.error s!"Missing persisted stream segment at index {covered}")
      else
        loadSegments (startIndex + available) maxBytes store (selectSegments maxBytes planned 0) startIndex 0) := by
  unfold awaitSegments
  cases checkCoverage true startIndex planned with
  | error error => rfl
  | ok covered =>
    change (if covered < startIndex + available then _ else _ : RowRead).run store =
      if covered < startIndex + available then _ else _
    by_cases short : covered < startIndex + available
    · rw [if_pos short, if_pos short]
      rfl
    · rw [if_neg short, if_neg short, getMany_run]
      exact loadSegments_congr fun start member =>
        @foldl_found store _ StreamStore.segments _ _ _ (.inl rfl) (.inl member)

theorem awaitSegmentRows_run {startIndex available maxBytes : Nat} :
    (awaitSegmentRows startIndex available maxBytes).run store =
      readSegmentRows startIndex available maxBytes store := by
  simp only [awaitSegmentRows, readSegmentRows, planSegments, RowRead.run]
  cases ((store.segmentSizes.toList.filter fun row =>
      startIndex ≤ row.1 ∧ row.1 < startIndex + available).take available).mapM planSegment with
  | error error => rfl
  | ok planned =>
    by_cases first : planned.head?.map Prod.fst = some startIndex
    · simp only [if_pos first, awaitSegments_run, bind, Except.bind]
    · simp only [if_neg first, RowRead.run, bind, Except.bind]
      cases (store.segmentSizes.toList.filter (·.1 < startIndex + 1)).getLast? with
      | none => rfl
      | some row =>
        dsimp only
        cases planSegment row with
        | error error => rfl
        | ok containing => exact awaitSegments_run

/-- Without a write in between, the awaits of a row read make no difference. -/
theorem awaitRows_run {layout : Option Nat} {startIndex available maxBytes : Nat} :
    (awaitRows layout startIndex available maxBytes).run store =
      readRows layout startIndex available maxBytes store := by
  unfold awaitRows readRows
  split
  · exact awaitSegmentRows_run
  · exact awaitChunkRows_run

end StreamDO

end CelldWorld
