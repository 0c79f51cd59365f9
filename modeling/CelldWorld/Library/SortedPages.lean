import Mathlib.Algebra.GroupWithZero.Nat
import Mathlib.Data.List.Sort

/-! Pages over several sorted sources. The first entries of the union are among the first
entries of each source, so a page of the union needs one short page of each. -/

namespace SortedPages

variable {α : Type} {r : α → α → Prop} [DecidableRel r]

theorem insertionSort_congr {s : α → α → Prop} [DecidableRel s] (same : ∀ left right, r left right ↔ s left right)
    (entries : List α) : entries.insertionSort r = entries.insertionSort s := by
  obtain rfl : r = s := funext fun left => funext fun right => propext (same left right)
  congr!

/-- The first entries of a merge only depend on the first entries of both sources. -/
theorem take_merge (le : α → α → Bool) (count : Nat) (left right : List α) :
    (List.merge left right le).take count = (List.merge (left.take count) (right.take count) le).take count := by
  induction count generalizing left right with
  | zero => simp
  | succ count ih =>
    cases left with
    | nil => simp [List.take_take]
    | cons first left =>
      cases right with
      | nil => simp [List.take_take]
      | cons second right =>
        simp only [List.take_succ_cons]
        rw [List.cons_merge_cons, List.cons_merge_cons]
        have shorten (entry : α) (entries : List α) :
            (entry :: entries.take count).take count = (entry :: entries).take count := by
          rw [← List.take_succ_cons, List.take_take, Nat.min_eq_left (Nat.le_succ count)]
        split
        · simp only [List.take_succ_cons]
          rw [ih left, ih (left.take count) (second :: right.take count), shorten, List.take_take, Nat.min_self]
        · simp only [List.take_succ_cons]
          rw [ih (first :: left), ih (first :: left.take count) (right.take count), shorten,
            List.take_take, Nat.min_self]

variable [IsTrans α r]

/-- Inserting before a sorted source is inserting into its merge. -/
theorem merge_cons {entry : α} {left : List α} (right : List α) (sorted : (entry :: left).Pairwise r) :
    List.merge (entry :: left) right (r · ·) = (List.merge left right (r · ·)).orderedInsert r entry := by
  obtain ⟨first, rest⟩ := List.pairwise_cons.mp sorted
  induction right generalizing left with
  | nil =>
    cases left with
    | nil => simp
    | cons next left => simp [first next (.head _)]
  | cons second right ih =>
    by_cases before : r entry second
    · rw [List.cons_merge_cons_pos _ _ _ (by simpa using before)]
      cases left with
      | nil => simp [before]
      | cons next left =>
        rw [List.cons_merge_cons]
        split
        · rw [List.orderedInsert_cons_of_le _ _ (first next (.head _))]
        · rw [List.orderedInsert_cons_of_le _ _ before]
    · rw [List.cons_merge_cons_neg _ _ _ (by simpa using before), ih sorted first rest]
      cases left with
      | nil => simp [before]
      | cons next left =>
        have after : ¬ r next second := fun earlier => before (IsTrans.trans _ _ _ (first next (.head _)) earlier)
        rw [List.cons_merge_cons_neg _ _ _ (by simpa using after), List.orderedInsert_of_not_le _ _ before]

/-- A stable sort merges a source that is sorted already. -/
theorem insertionSort_append {left : List α} (right : List α) (sorted : left.Pairwise r) :
    (left ++ right).insertionSort r = List.merge left (right.insertionSort r) (r · ·) := by
  induction left with
  | nil => simp
  | cons entry left ih =>
    rw [List.cons_append, List.insertionSort_cons, ih (List.pairwise_cons.mp sorted).2, merge_cons _ sorted]

/-- A page of the union can be made from a page of each source. -/
theorem take_insertionSort_flatMap {β : Type} {sources : List β} {entries : β → List α} {count : Nat} (size : Nat)
    (enough : count ≤ size) (sorted : ∀ source ∈ sources, (entries source).Pairwise r) :
    ((sources.flatMap fun source => (entries source).take size).insertionSort r).take count =
      ((sources.flatMap entries).insertionSort r).take count := by
  induction sources with
  | nil => simp
  | cons source sources ih =>
    have first := sorted source (.head _)
    rw [List.flatMap_cons, List.flatMap_cons, insertionSort_append _ (first.sublist (List.take_sublist _ _)),
      insertionSort_append _ first, take_merge, ih fun other member => sorted other (.tail _ member),
      List.take_take, Nat.min_eq_left enough, ← take_merge]

theorem filter_orderedInsert {keep : α → Bool} {entry : α} {entries : List α} (sorted : entries.Pairwise r) :
    (entries.orderedInsert r entry).filter keep =
      if keep entry then (entries.filter keep).orderedInsert r entry else entries.filter keep := by
  induction entries with
  | nil => cases kept : keep entry <;> simp [kept]
  | cons first entries ih =>
    obtain ⟨least, rest⟩ := List.pairwise_cons.mp sorted
    by_cases before : r entry first
    · rw [List.orderedInsert_cons_of_le _ _ before]
      cases kept : keep entry with
      | false => simp [kept]
      | true =>
        rw [List.filter_cons_of_pos kept, if_pos rfl]
        cases left : (first :: entries).filter keep with
        | nil => rfl
        | cons next others =>
          have member : next ∈ first :: entries := List.mem_of_mem_filter (left ▸ List.mem_cons_self)
          have earlier : r entry next := by
            rcases List.mem_cons.mp member with rfl | later
            · exact before
            · exact IsTrans.trans _ _ _ before (least next later)
          rw [List.orderedInsert_cons_of_le _ _ earlier]
    · rw [List.orderedInsert_of_not_le _ _ before]
      cases kept : keep entry with
      | false => cases first' : keep first <;> simp [ih rest, kept, first']
      | true => cases first' : keep first <;> simp [ih rest, kept, first', before]

variable [Std.Total r]

/-- Filtering before or after the sort makes no difference. -/
theorem filter_insertionSort {keep : α → Bool} (entries : List α) :
    (entries.insertionSort r).filter keep = (entries.filter keep).insertionSort r := by
  induction entries with
  | nil => rfl
  | cons entry entries ih =>
    rw [List.insertionSort_cons, filter_orderedInsert (List.pairwise_insertionSort r entries), ih]
    cases kept : keep entry <;> simp [kept]

/-- What follows an entry of a strictly sorted list is what lies beyond it. -/
theorem filter_beyond {before : α → α → Prop} {entry : α} {front back : List α} {beyond : α → Bool}
    (sorted : (front ++ entry :: back).Pairwise before) (irrefl : ∀ other, ¬ before other other)
    (asymm : ∀ other, before other entry → ¬ before entry other)
    (exact' : ∀ other, beyond other = true ↔ before entry other) :
    (front ++ entry :: back).filter beyond = back := by
  obtain ⟨-, rest, across⟩ := List.pairwise_append.mp sorted
  have left : front.filter beyond = [] := List.filter_eq_nil_iff.mpr fun other member holds =>
    asymm other (across other member entry (.head _)) ((exact' other).mp holds)
  have self : beyond entry = false := Bool.eq_false_iff.mpr fun holds => irrefl entry ((exact' entry).mp holds)
  have right : back.filter beyond = back := List.filter_eq_self.mpr fun other member =>
    (exact' other).mpr ((List.pairwise_cons.mp rest).1 other member)
  rw [List.filter_append, left, List.filter_cons_of_neg (by simp [self]), right, List.nil_append]

/-- Whether all entries fit a page can be seen from a page of each source, one entry longer. -/
theorem sum_min_le_iff {β : Type} (sources : List β) (size : β → Nat) (limit : Nat) :
    (sources.map fun source => min (limit + 1) (size source)).sum ≤ limit ↔ (sources.map size).sum ≤ limit := by
  have between : min (limit + 1) (sources.map size).sum ≤
    (sources.map fun source => min (limit + 1) (size source)).sum ∧
      (sources.map fun source => min (limit + 1) (size source)).sum ≤ (sources.map size).sum := by
    induction sources with
    | nil => simp
    | cons source sources ih =>
      simp only [List.map_cons, List.sum_cons]
      omega
  omega

end SortedPages
