import Std.Data.ExtTreeMap
import Std.Data.ExtTreeMap.Lemmas
import Mathlib.Data.List.Basic

/-! An append-only log kept in a keyed store: entry `i` lives under `key i`,
for an injective numbering `key` whose first slot is 1. -/

namespace SlotLog

variable {κ ν : Type} {cmp : κ → κ → Ordering} [Std.TransCmp cmp]
variable {key : Nat → κ} {store : Std.ExtTreeMap κ ν cmp} {size : Nat}

/-- The store has exactly the keys of the slots `1..size`. -/
def Dense (key : Nat → κ) (store : Std.ExtTreeMap κ ν cmp) (size : Nat) : Prop :=
  ∀ k, k ∈ store ↔ ∃ slot, 1 ≤ slot ∧ slot ≤ size ∧ key slot = k

/-- The entries of the slots `1..size`, in slot order. -/
def entries (key : Nat → κ) (store : Std.ExtTreeMap κ ν cmp) (size : Nat) : List ν :=
  (List.range size).filterMap fun i => store[key (i + 1)]?

theorem dense_empty : Dense key (∅ : Std.ExtTreeMap κ ν cmp) 0 := by
  intro k
  simp only [Std.ExtTreeMap.not_mem_empty, false_iff, not_exists, not_and]
  omega

@[simp] theorem entries_zero : entries key store 0 = [] := rfl

/-- Writing the next slot keeps the log dense. -/
theorem Dense.insert_next [Std.LawfulEqCmp cmp] (dense : Dense key store size) (value : ν) :
    Dense key (store.insert (key (size + 1)) value) (size + 1) := by
  intro k
  rw [Std.ExtTreeMap.mem_insert, Std.LawfulEqCmp.compare_eq_iff_eq, dense k]
  constructor
  · rintro (same | ⟨slot, lower, upper, at_slot⟩)
    · exact ⟨size + 1, by omega, Nat.le_refl _, same⟩
    · exact ⟨slot, lower, by omega, at_slot⟩
  · rintro ⟨slot, lower, upper, at_slot⟩
    by_cases last : slot = size + 1
    · exact Or.inl (by rw [← last, at_slot])
    · exact Or.inr ⟨slot, lower, by omega, at_slot⟩

/-- A slot that was not written yet is absent. -/
theorem Dense.next_absent (dense : Dense key store size) (injective : Function.Injective key) :
    key (size + 1) ∉ store := by
  rw [dense]
  rintro ⟨slot, _, upper, same⟩
  have := injective same
  omega

/-- Every slot in range holds an entry. -/
theorem Dense.getElem? (dense : Dense key store size) {slot : Nat} (lower : 1 ≤ slot)
    (upper : slot ≤ size) : ∃ value, store[key slot]? = some value := by
  have member := (dense (key slot)).2 ⟨slot, lower, upper, rfl⟩
  exact ⟨store[key slot], by simp [member]⟩

theorem entries_congr {other : Std.ExtTreeMap κ ν cmp}
    (same : ∀ slot, 1 ≤ slot → slot ≤ size → other[key slot]? = store[key slot]?) :
    entries key other size = entries key store size := by
  refine List.filterMap_congr fun i member => ?_
  have bound := List.mem_range.mp member
  exact same (i + 1) (by omega) (by omega)

/-- Writing the next slot appends to the log, whatever stood there before. -/
theorem entries_insert_next [Std.LawfulEqCmp cmp] (injective : Function.Injective key) (value : ν) :
    entries key (store.insert (key (size + 1)) value) (size + 1) = entries key store size ++ [value] := by
  unfold entries
  rw [List.range_succ, List.filterMap_append]
  have last : List.filterMap (fun i => (store.insert (key (size + 1)) value)[key (i + 1)]?) [size] = [value] := by
    simp
  rw [last]
  congr 1
  refine entries_congr fun slot lower upper => ?_
  have different : key (size + 1) ≠ key slot := fun same => by
    have := injective same
    omega
  rw [Std.ExtTreeMap.getElem?_insert, if_neg]
  simpa using different

/-- A log whose entries were only removed has become no longer. -/
theorem length_entries_le {other : Std.ExtTreeMap κ ν cmp} {size' : Nat}
    (kept : ∀ (k : κ) value, other[k]? = some value → store[k]? = some value) (shorter : size' ≤ size) :
    (entries key other size').length ≤ (entries key store size).length := by
  obtain ⟨extra, rfl⟩ := Nat.exists_eq_add_of_le shorter
  have pointwise : (entries key other size').length ≤ (entries key store size').length := by
    unfold entries
    rw [List.length_filterMap_eq_countP, List.length_filterMap_eq_countP]
    refine List.countP_mono_left fun i _ found => ?_
    obtain ⟨value, stored⟩ := Option.isSome_iff_exists.mp found
    rw [kept _ value stored]
    rfl
  refine Nat.le_trans pointwise ?_
  unfold entries
  rw [List.range_add, List.filterMap_append, List.length_append]
  exact Nat.le_add_right _ _

theorem mem_entries {value : ν} :
    value ∈ entries key store size ↔ ∃ slot, 1 ≤ slot ∧ slot ≤ size ∧ store[key slot]? = some value := by
  simp only [entries, List.mem_filterMap, List.mem_range]
  constructor
  · rintro ⟨i, bound, at_slot⟩
    exact ⟨i + 1, by omega, by omega, at_slot⟩
  · rintro ⟨slot, lower, upper, at_slot⟩
    exact ⟨slot - 1, by omega, by rwa [Nat.sub_add_cancel lower]⟩

/-- In a dense log the entries are exactly the stored values. -/
theorem Dense.mem_entries_iff (dense : Dense key store size) {value : ν} :
    value ∈ entries key store size ↔ ∃ k : κ, store[k]? = some value := by
  rw [mem_entries]
  constructor
  · rintro ⟨slot, _, _, at_slot⟩
    exact ⟨key slot, at_slot⟩
  · rintro ⟨k, at_key⟩
    have member : k ∈ store := by
      rw [Std.ExtTreeMap.mem_iff_isSome_getElem?, at_key]
      rfl
    obtain ⟨slot, lower, upper, same⟩ := (dense k).1 member
    exact ⟨slot, lower, upper, by rw [same, at_key]⟩

section Ordered
variable [Std.LawfulEqCmp cmp] (increasing : ∀ {earlier later}, earlier < later →
    cmp (key earlier) (key later) = .lt)

include increasing in
theorem key_lt {left right : Nat} : cmp (key left) (key right) = .lt ↔ left < right := by
  refine ⟨fun less => ?_, fun less => increasing less⟩
  rcases Nat.lt_trichotomy left right with before | rfl | after
  · exact before
  · rw [(Std.ReflCmp.compare_self : cmp (key left) (key left) = .eq)] at less
    cases less
  · rw [Std.OrientedCmp.gt_of_lt (increasing after)] at less
    cases less

include increasing in
/-- The keys of a dense log come in the order of its slots. -/
theorem Dense.keys (dense : Dense key store size) : store.keys = (List.range' 1 size).map key := by
  have slots : ((List.range' 1 size).map key).Pairwise fun left right => cmp left right = .lt :=
    List.pairwise_map.mpr (List.Pairwise.imp (fun less => increasing less) (List.pairwise_lt_range' 1))
  refine List.Perm.eq_of_pairwise (fun left right _ _ less more => ?_) Std.ExtTreeMap.ordered_keys slots ?_
  · rw [Std.OrientedCmp.gt_of_lt less] at more
    cases more
  · have distinct : ((List.range' 1 size).map key).Nodup := slots.imp fun less =>
      @Std.ReflCmp.ne_of_cmp_ne_eq _ cmp _ _ _ fun same => by
        rw [less] at same
        cases same
    refine (List.perm_ext_iff_of_nodup Std.ExtTreeMap.nodup_keys distinct).mpr fun k => ?_
    rw [Std.ExtTreeMap.mem_keys, dense, List.mem_map]
    refine exists_congr fun slot => ?_
    rw [List.mem_range'_1, ← and_assoc]
    refine and_congr_left fun _ => ?_
    omega

include increasing in
theorem Dense.toList (dense : Dense key store size) :
    store.toList.map (fun entry => (entry.1, some entry.2)) = (List.range' 1 size).map fun slot =>
      (key slot, store[key slot]?) := by
  have looked : ∀ entry ∈ store.toList, (entry.1, some entry.2) = (entry.1, store[entry.1]?) :=
    fun entry member => by
    rw [Std.ExtTreeMap.mem_toList_iff_getElem?_eq_some.mp member]
  calc store.toList.map (fun entry => (entry.1, some entry.2))
      = store.toList.map fun entry => (entry.1, store[entry.1]?) := List.map_congr_left looked
    _ = (store.toList.map Prod.fst).map fun k => (k, store[k]?) := by rw [List.map_map]; rfl
    _ = _ := by rw [Std.ExtTreeMap.map_fst_toList_eq_keys, dense.keys increasing, List.map_map]; rfl

theorem take_range' (first count limit : Nat) :
    (List.range' first count).take limit = List.range' first (min limit count) := by
  rcases Nat.le_total limit count with short | long
  · rw [List.take_range'_of_length_ge short, Nat.min_eq_left short]
  · rw [List.take_range'_of_length_le long, Nat.min_eq_right long]

theorem filter_range' (last size : Nat) :
    (List.range' 1 size).filter (last < ·) = List.range' (last + 1) (size - last) := by
  rcases Nat.le_total last size with inside | beyond
  · obtain ⟨rest, rfl⟩ := Nat.exists_eq_add_of_le inside
    rw [← List.range'_append_1, List.filter_append, Nat.add_comm 1 last, Nat.add_sub_cancel_left]
    have earlier : (List.range' 1 last).filter (last < ·) = [] := List.filter_eq_nil_iff.mpr fun slot member => by
      have bound := List.mem_range'_1.mp member
      rw [decide_eq_true_eq]
      omega
    have later : (List.range' (last + 1) rest).filter (last < ·) = List.range' (last + 1) rest :=
      List.filter_eq_self.mpr fun slot member => by
        have bound := List.mem_range'_1.mp member
        rw [decide_eq_true_eq]
        omega
    rw [earlier, later, List.nil_append]
  · rw [Nat.sub_eq_zero_of_le beyond]
    refine List.filter_eq_nil_iff.mpr fun slot member => ?_
    have bound := List.mem_range'_1.mp member
    rw [decide_eq_true_eq]
    omega

include increasing in
/-- The entries beyond a slot are the ones of the later slots, in their order. -/
theorem Dense.beyond (dense : Dense key store size) (last limit : Nat) :
    ((store.toList.filter fun entry => cmp (key last) entry.1 = .lt).take limit).map (fun entry => some entry.2) =
      (List.range' (last + 1) (min limit (size - last))).map fun slot => store[key slot]? := by
  have filtered : (store.toList.filter fun entry => cmp (key last) entry.1 = .lt).map
    (fun entry => (entry.1, some entry.2)) =
      (List.range' (last + 1) (size - last)).map fun slot => (key slot, store[key slot]?) := by
    calc _ = (store.toList.map fun entry => (entry.1, some entry.2)).filter
              fun entry => cmp (key last) entry.1 = .lt := by
            rw [List.filter_map]
            rfl
      _ = _ := by
            rw [dense.toList increasing, List.filter_map, ← filter_range']
            refine congrArg _ (List.filter_congr fun slot _ => ?_)
            exact decide_eq_decide.mpr (key_lt increasing)
  have values := congrArg (fun entries => (entries.take limit).map Prod.snd) filtered
  simp only [← List.map_take, List.map_map, take_range'] at values
  exact values

end Ordered

end SlotLog
