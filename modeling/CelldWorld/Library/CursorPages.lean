import Mathlib.Data.List.Basic
import Mathlib.Order.Defs.Unbundled

/-! Pages over entries in a strict order of their keys. The cursor of a page is the key of its
last entry, and the next page starts beyond it, over the entries that are there by then. -/

namespace CursorPages

variable {κ ν : Type} (before : κ → κ → Prop) [DecidableRel before]

/-- The entries beyond a cursor. -/
def beyond (cursor : Option κ) (entries : List (κ × ν)) : List (κ × ν) :=
  entries.filter fun entry => cursor.all fun key => before key entry.1

def page (limit : Nat) (cursor : Option κ) (entries : List (κ × ν)) : List (κ × ν) :=
  (beyond before cursor entries).take limit

/-- The cursor after a page, where there are more entries. -/
def next (limit : Nat) (cursor : Option κ) (entries : List (κ × ν)) : Option κ :=
  if limit < (beyond before cursor entries).length then (page before limit cursor entries).getLast?.map Prod.fst
  else none

/-- The pages that the cursors lead through, over the entries at the time of each page, and
whether the last of them has no more. -/
def walk (limit : Nat) : List (List (κ × ν)) → Option κ → List (List (κ × ν)) × Bool
  | [], _ => ([], false)
  | entries :: later, cursor =>
    match next before limit cursor entries with
    | none => ([page before limit cursor entries], true)
    | some key =>
      let (pages, done) := walk limit later (some key)
      (page before limit cursor entries :: pages, done)

/-- Entries in the order of their keys. -/
abbrev Ordered (entries : List (κ × ν)) : Prop := entries.Pairwise fun left right => before left.1 right.1

variable {before} {limit : Nat} {cursor : Option κ} {entries : List (κ × ν)}
    {stores : List (List (κ × ν))} {key : κ}

theorem mem_beyond {entry : κ × ν} :
    entry ∈ beyond before cursor entries ↔ entry ∈ entries ∧ ∀ key ∈ cursor, before key entry.1 := by
  unfold beyond
  rw [List.mem_filter]
  cases cursor with
  | none => simp
  | some key => simp

theorem Ordered.beyond (ordered : Ordered before entries) : Ordered before (beyond before cursor entries) :=
  ordered.sublist List.filter_sublist

theorem page_sublist : (page before limit cursor entries).Sublist entries :=
  (List.take_sublist _ _).trans List.filter_sublist

theorem next_eq_none (some_ : 0 < limit) :
    next before limit cursor entries = none ↔ (beyond before cursor entries).length ≤ limit := by
  unfold next
  split
  · rename_i more
    have filled : page before limit cursor entries ≠ [] := by
      intro empty
      rcases List.take_eq_nil_iff.mp empty with none | none
      · omega
      · rw [none] at more
        exact absurd more (Nat.not_lt_zero _)
    rw [List.getLast?_eq_some_getLast filled]
    exact ⟨nofun, fun few => absurd few (Nat.not_le_of_lt more)⟩
  · rename_i few
    exact ⟨fun _ => Nat.le_of_not_lt few, fun _ => rfl⟩

theorem next_eq_some (more : next before limit cursor entries = some key) :
    ∃ last, (page before limit cursor entries).getLast? = some last ∧ last.1 = key := by
  unfold next at more
  split at more
  · exact Option.map_eq_some_iff.mp more
  · cases more

/-- The last page holds all that is left. -/
theorem page_last (some_ : 0 < limit) (last : next before limit cursor entries = none) :
    page before limit cursor entries = beyond before cursor entries :=
  List.take_of_length_le ((next_eq_none some_).mp last)

/-- Each page holds entries that are there at its time. -/
theorem walk_stored : (walk before limit stores cursor).1.length ≤ stores.length ∧
    ∀ visit ∈ stores.zip (walk before limit stores cursor).1, visit.2.Sublist visit.1 := by
  induction stores generalizing cursor with
  | nil => exact ⟨Nat.le_refl _, nofun⟩
  | cons entries later ih =>
    unfold walk
    split
    · refine ⟨Nat.succ_le_succ (Nat.zero_le _), fun visit member => ?_⟩
      rw [List.zip_cons_cons, List.zip_nil_right, List.mem_singleton] at member
      exact member ▸ page_sublist
    · rename_i key more
      obtain ⟨fewer, rest⟩ := @ih (some key)
      refine ⟨Nat.succ_le_succ fewer, fun visit member => ?_⟩
      rw [List.zip_cons_cons, List.mem_cons] at member
      rcases member with rfl | further
      · exact page_sublist
      · exact rest visit further

/-- The cursor is beyond the one before it, and no entry of the page is beyond the cursor. -/
theorem next_beyond (ordered : Ordered before entries) (more : next before limit cursor entries = some key) :
    (∀ start ∈ cursor, before start key) ∧
      ∀ entry ∈ page before limit cursor entries, entry.1 = key ∨ before entry.1 key := by
  unfold next at more
  split at more
  · obtain ⟨last, ends, rfl⟩ := Option.map_eq_some_iff.mp more
    obtain ⟨front, split⟩ := List.getLast?_eq_some_iff.mp ends
    have reached : last ∈ page before limit cursor entries := by
      rw [split]
      exact List.mem_append_right _ (List.mem_singleton_self last)
    refine ⟨(mem_beyond.mp (List.mem_of_mem_take reached)).2, fun entry member => ?_⟩
    have sorted : Ordered before (page before limit cursor entries) := ordered.sublist page_sublist
    rw [split] at member sorted
    rcases List.mem_append.mp member with earlier | same
    · exact .inr ((List.pairwise_append.mp sorted).2.2 entry earlier last (List.mem_singleton_self last))
    · exact .inl (congrArg Prod.fst (List.mem_singleton.mp same))
  · cases more

variable [IsStrictOrder κ before]

/-- The page ends at its cursor, and what is left lies beyond it. -/
theorem beyond_next (ordered : Ordered before entries) (more : next before limit cursor entries = some key) :
    beyond before (some key) entries = (beyond before cursor entries).drop limit := by
  unfold next at more
  split at more
  · obtain ⟨last, ends, rfl⟩ := Option.map_eq_some_iff.mp more
    obtain ⟨front, split⟩ := List.getLast?_eq_some_iff.mp ends
    have whole : beyond before cursor entries = front ++ last :: (beyond before cursor entries).drop limit := by
      calc beyond before cursor entries
          = page before limit cursor entries ++ (beyond before cursor entries).drop limit :=
            (List.take_append_drop limit _).symm
        _ = _ := by rw [split, List.append_assoc, List.singleton_append]
    have sorted : Ordered before (beyond before cursor entries) := ordered.beyond
    have after : beyond before (some last.1) (beyond before cursor entries) =
        beyond before (some last.1) entries := by
      unfold beyond
      rw [List.filter_filter]
      refine List.filter_congr fun entry member => ?_
      have reached : last ∈ beyond before cursor entries := by
        rw [whole]
        exact List.mem_append_right _ (List.mem_cons_self ..)
      have start := (mem_beyond.mp reached).2
      cases cursor with
      | none => simp
      | some key =>
        have first := start key rfl
        by_cases later : before last.1 entry.1
        · simp [later, IsTrans.trans _ _ _ first later]
        · simp [later]
    rw [← after]
    generalize (beyond before cursor entries).drop limit = rest at whole
    rw [whole] at sorted ⊢
    obtain ⟨-, tail, across⟩ := List.pairwise_append.mp sorted
    unfold beyond
    rw [List.filter_append, List.filter_eq_nil_iff.mpr, List.filter_cons_of_neg,
      List.filter_eq_self.mpr, List.nil_append]
    · exact fun entry member => decide_eq_true ((List.pairwise_cons.mp tail).1 entry member)
    · exact fun self => irrefl _ (of_decide_eq_true self)
    · exact fun entry member holds =>
        irrefl _ (IsTrans.trans _ _ _ (across entry member last (.head _)) (of_decide_eq_true holds))
  · cases more

/-- Over entries that change in any way, no key is visited twice, and the keys come in order. -/
theorem walk_ordered (ordered : ∀ entries ∈ stores, Ordered before entries) :
    Ordered before (walk before limit stores cursor).1.flatten ∧
      ∀ entry ∈ (walk before limit stores cursor).1.flatten, ∀ start ∈ cursor, before start entry.1 := by
  induction stores generalizing cursor with
  | nil => exact ⟨.nil, nofun⟩
  | cons entries later ih =>
    have first := ordered entries (List.mem_cons_self ..)
    have sorted : Ordered before (page before limit cursor entries) := first.sublist page_sublist
    have start : ∀ entry ∈ page before limit cursor entries, ∀ start ∈ cursor, before start entry.1 :=
      fun entry member => (mem_beyond.mp (List.mem_of_mem_take member)).2
    unfold walk
    split
    · rw [List.flatten_singleton]
      exact ⟨sorted, start⟩
    · rename_i key more
      obtain ⟨rest, beyondKey⟩ := @ih (some key) fun other member => ordered other (List.mem_cons_of_mem _ member)
      obtain ⟨advanced, closed⟩ := next_beyond first more
      rw [List.flatten_cons]
      refine ⟨List.pairwise_append.mpr ⟨sorted, rest, fun entry member other visited => ?_⟩,
        fun entry member begin' reached => ?_⟩
      · rcases closed entry member with same | earlier
        · exact same ▸ beyondKey other visited key rfl
        · exact IsTrans.trans _ _ _ earlier (beyondKey other visited key rfl)
      · rcases List.mem_append.mp member with here | visited
        · exact start entry here begin' reached
        · exact IsTrans.trans _ _ _ (advanced begin' reached) (beyondKey entry visited key rfl)

/-- A key that is there at every page is visited, once there are no more. -/
theorem walk_complete (some_ : 0 < limit) (ordered : ∀ entries ∈ stores, Ordered before entries)
    (present : ∀ entries ∈ stores, ∃ value, (key, value) ∈ entries) (start : ∀ first ∈ cursor, before first key)
    (done : (walk before limit stores cursor).2 = true) :
    ∃ value, (key, value) ∈ (walk before limit stores cursor).1.flatten := by
  induction stores generalizing cursor with
  | nil => cases done
  | cons entries later ih =>
    have first := ordered entries (List.mem_cons_self ..)
    obtain ⟨value, there⟩ := present entries (List.mem_cons_self ..)
    have member := mem_beyond.mpr ⟨there, start⟩
    unfold walk at done ⊢
    split at done
    · rename_i last
      rw [List.flatten_singleton, page_last some_ last]
      exact ⟨value, member⟩
    · rename_i reached more
      rw [← List.take_append_drop limit (beyond before cursor entries), List.mem_append,
        ← beyond_next first more] at member
      rcases member with here | further
      · exact ⟨value, List.mem_append_left _ here⟩
      · obtain ⟨later, visited⟩ := ih (fun other member => ordered other (List.mem_cons_of_mem _ member))
          (fun other member => present other (List.mem_cons_of_mem _ member)) (mem_beyond.mp further).2 done
        exact ⟨later, List.mem_append_right _ visited⟩

/-- Over entries that stay, the pages are what lies beyond the cursor, cut in order. -/
theorem walk_replicate {pages : Nat} (some_ : 0 < limit) (ordered : Ordered before entries)
    (enough : (beyond before cursor entries).length < pages) :
    (walk before limit (List.replicate pages entries) cursor).2 = true ∧
      (walk before limit (List.replicate pages entries) cursor).1.flatten = beyond before cursor entries := by
  induction pages generalizing cursor with
  | zero => exact absurd enough (Nat.not_lt_zero _)
  | succ pages ih =>
    rw [List.replicate_succ]
    unfold walk
    split
    · rename_i last
      exact ⟨rfl, by rw [List.flatten_singleton, page_last some_ last]⟩
    · rename_i key more
      have left := beyond_next ordered more
      have longer : limit < (beyond before cursor entries).length := by
        refine Nat.lt_of_not_le fun few => ?_
        rw [(next_eq_none some_).mpr few] at more
        cases more
      obtain ⟨done, rest⟩ := @ih (some key) (by rw [left, List.length_drop]; omega)
      exact ⟨done, by rw [List.flatten_cons, rest, left]; exact List.take_append_drop limit _⟩

end CursorPages
