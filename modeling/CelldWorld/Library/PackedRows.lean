import Std.Data.ExtTreeMap
import Std.Data.ExtTreeMap.Lemmas
import Mathlib.Data.List.Basic

/-! A sequence of items kept in the rows of a store: the row under `key` packs the items
from position `key` on. -/

namespace PackedRows

variable {α ν : Type}

/-- The rows pack a sequence that starts at a position, without a gap or an empty row. -/
def Contiguous : Nat → List (Nat × List α) → Prop
  | _, [] => True
  | position, (key, items) :: rows => key = position ∧ items ≠ [] ∧ Contiguous (position + items.length) rows

/-- The packed sequence. -/
def items (rows : List (Nat × List α)) : List α := rows.flatMap Prod.snd

@[simp] theorem items_nil : items ([] : List (Nat × List α)) = [] := rfl

@[simp] theorem items_cons (row : Nat × List α) (rows : List (Nat × List α)) :
    items (row :: rows) = row.2 ++ items rows := rfl

@[simp] theorem items_append (rows more : List (Nat × List α)) :
    items (rows ++ more) = items rows ++ items more :=
  List.flatMap_append

theorem contiguous_append {position : Nat} {rows more : List (Nat × List α)} :
    Contiguous position (rows ++ more) ↔
      Contiguous position rows ∧ Contiguous (position + (items rows).length) more := by
  induction rows generalizing position with
  | nil => simp [Contiguous]
  | cons row rows ih =>
    obtain ⟨key, packed⟩ := row
    simp only [List.cons_append, Contiguous, ih, items_cons, List.length_append, Nat.add_assoc, and_assoc]

theorem Contiguous.key_le {position : Nat} {rows : List (Nat × List α)} (contiguous : Contiguous position rows)
    {row : Nat × List α} (member : row ∈ rows) :
    position ≤ row.1 ∧ row.1 + row.2.length ≤ position + (items rows).length ∧ row.2 ≠ [] := by
  induction rows generalizing position with
  | nil => cases member
  | cons first rows ih =>
    obtain ⟨key, packed⟩ := first
    obtain ⟨rfl, filled, rest⟩ := contiguous
    simp only [items_cons, List.length_append]
    rcases List.mem_cons.mp member with rfl | later
    · exact ⟨Nat.le_refl _, by simp only; omega, filled⟩
    · obtain ⟨lower, upper, nonempty⟩ := ih rest later
      exact ⟨by omega, by omega, nonempty⟩

theorem Contiguous.sorted {position : Nat} {rows : List (Nat × List α)} (contiguous : Contiguous position rows) :
    rows.Pairwise fun row later => row.1 < later.1 := by
  induction rows generalizing position with
  | nil => exact .nil
  | cons row rows ih =>
    obtain ⟨key, packed⟩ := row
    obtain ⟨rfl, filled, rest⟩ := contiguous
    refine List.pairwise_cons.mpr ⟨fun later member => ?_, ih rest⟩
    have lower := (rest.key_le member).1
    have positive := List.length_pos_of_ne_nil filled
    exact Nat.lt_of_lt_of_le (by omega) lower

/-- Rows that all start before a bound are no more than the positions up to it. -/
theorem Contiguous.length_le {position bound : Nat} {rows : List (Nat × List α)}
    (contiguous : Contiguous position rows) (below : ∀ row ∈ rows, row.1 < bound) :
    position + rows.length ≤ max position bound := by
  induction rows generalizing position with
  | nil => exact Nat.le_max_left _ _
  | cons row rows ih =>
    obtain ⟨key, packed⟩ := row
    obtain ⟨rfl, filled, rest⟩ := contiguous
    have first := below _ (.head _)
    have later := ih rest fun row member => below row (.tail _ member)
    have positive := List.length_pos_of_ne_nil filled
    simp only [List.length_cons] at first ⊢
    omega

/-- The row that an item of the sequence is in. -/
theorem Contiguous.find {position index : Nat} {rows : List (Nat × List α)}
    (contiguous : Contiguous position rows)
    (lower : position ≤ index) (upper : index < position + (items rows).length) :
    ∃ before row after, rows = before ++ row :: after ∧ row.1 = position + (items before).length ∧
      row.1 ≤ index ∧ index < row.1 + row.2.length := by
  induction rows generalizing position with
  | nil => exact absurd upper (by simp; omega)
  | cons row rows ih =>
    obtain ⟨key, packed⟩ := row
    obtain ⟨rfl, filled, rest⟩ := contiguous
    by_cases inside : index < key + packed.length
    · exact ⟨[], (key, packed), rows, rfl, rfl, lower, inside⟩
    · simp only [items_cons, List.length_append] at upper
      obtain ⟨before, row, after, rfl, key_eq, reached, within⟩ := ih rest (by omega) (by omega)
      refine ⟨(key, packed) :: before, row, after, rfl, ?_, reached, within⟩
      simp only [key_eq, items_cons, List.length_append]
      omega

/-- The rows that start before a bound come first. -/
theorem Contiguous.filter_lt {position : Nat} {rows : List (Nat × List α)} (contiguous : Contiguous position rows)
    (bound : Nat) : ∃ kept rest, rows = kept ++ rest ∧ rows.filter (fun row => row.1 < bound) = kept ∧
      (∀ row ∈ kept, row.1 < bound) ∧ ∀ row ∈ rest, bound ≤ row.1 := by
  induction rows generalizing position with
  | nil =>
    refine ⟨[], [], rfl, rfl, ?_, ?_⟩ <;> (intro row member; cases member)
  | cons row rows ih =>
    obtain ⟨key, packed⟩ := row
    obtain ⟨rfl, filled, rest⟩ := contiguous
    by_cases below : key < bound
    · obtain ⟨kept, left, rfl, filtered, lower, upper⟩ := ih rest
      refine ⟨(key, packed) :: kept, left, rfl, ?_, fun row member => ?_, upper⟩
      · rw [List.filter_cons_of_pos (by simpa using below), filtered]
      · rcases List.mem_cons.mp member with rfl | later
        · exact below
        · exact lower row later
    · have later : ∀ row ∈ (key, packed) :: rows, bound ≤ row.1 := by
        intro row member
        rcases List.mem_cons.mp member with rfl | later
        · exact Nat.le_of_not_lt below
        · have lower := (rest.key_le later).1
          omega
      refine ⟨[], (key, packed) :: rows, rfl, ?_, ?_, later⟩
      · refine List.filter_eq_nil_iff.mpr fun row member => ?_
        simpa using later row member
      · intro row member
        cases member

/-- A store lists its rows by key. -/
theorem toList_eq {map : Std.ExtTreeMap Nat ν} {rows : List (Nat × ν)}
    (sorted : rows.Pairwise fun row later => row.1 < later.1)
    (stored : ∀ key value, map[key]? = some value ↔ (key, value) ∈ rows) : map.toList = rows := by
  have ordered : map.toList.Pairwise fun row later => row.1 < later.1 :=
    Std.ExtTreeMap.ordered_keys_toList.imp fun before => Nat.compare_eq_lt.mp before
  have nodup {list : List (Nat × ν)} (increasing : list.Pairwise fun row later => row.1 < later.1) :
      list.Nodup := by
    refine increasing.imp fun before same => ?_
    exact absurd (congrArg Prod.fst same) (Nat.ne_of_lt before)
  have perm : map.toList.Perm rows := by
    rw [List.perm_ext_iff_of_nodup (nodup ordered) (nodup sorted)]
    rintro ⟨key, value⟩
    rw [Std.ExtTreeMap.mem_toList_iff_getElem?_eq_some]
    exact stored key value
  exact perm.eq_of_pairwise (fun row later _ _ before after => absurd before (Nat.lt_asymm after)) ordered sorted

end PackedRows
