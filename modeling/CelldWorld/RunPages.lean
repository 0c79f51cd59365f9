import Mathlib.Data.Rat.Floor
import Mathlib.Data.String.Basic
import CelldWorld.Library.CursorPages
import CelldWorld.IsoTimes

namespace CelldWorld

def MAX_ENTITY_PAGE_SIZE : Nat := 1000

/-- The key of an entity in an index by creation time, without the prefix. -/
def creationIndexKey (createdAt : Nat) (id : String) : String := s!"{toISOString createdAt}:{id}"

/-- `store.list` of the entries under one prefix, before its limit. -/
def KeyMap.listed {ν : Type} (entries : KeyMap ν) (sortOrder : SortOrder) : List (String × ν) :=
  match sortOrder with
  | .asc => entries.toList
  | .desc => entries.toList.reverse

/-- The order in which a listing comes to its keys. -/
def SortOrder.before (sortOrder : SortOrder) (left right : String) : Prop :=
  match sortOrder with
  | .asc => left < right
  | .desc => right < left

instance (sortOrder : SortOrder) : DecidableRel sortOrder.before := fun left right => by
  cases sortOrder
  · exact inferInstanceAs (Decidable (left < right))
  · exact inferInstanceAs (Decidable (right < left))

/-- `listByPrefix` with any number as its limit. Storage and `slice` round it down. -/
def listByPrefixNumber {ν : Type} (entries : KeyMap ν) (limit : Rat) (cursor : Option String)
    (sortOrder : SortOrder) (getId : ν → String) : List ν × Option String × Bool :=
  let values := (((entries.listed sortOrder).filter fun entry =>
    (truthy cursor).all (sortOrder.before · entry.1)).take (limit + 1).floor.toNat).map (·.2)
  let hasMore := decide (limit < values.length)
  let data := values.take limit.floor.toNat
  (data, if hasMore then data.getLast?.map getId else none, hasMore)

/-- A requested limit, rounded down and clamped; it is absent where it is not finite. -/
def entityPageLimit (limit : Option Rat) : Nat :=
  (min (MAX_ENTITY_PAGE_SIZE : Int) (max 1 ((limit.map Rat.floor).getD 1))).toNat

/-- Cursor pagination over an explicit creation-time index. Entity ids are values rather
than key suffixes. -/
def listByCreationTime {ν : Type} (index : KeyMap String) (entities : KeyMap ν) (limit : Option Rat)
    (cursor : Option String) (sortOrder : SortOrder) : List ν × Option String × Bool :=
  let limit := entityPageLimit limit
  let entries := ((index.listed sortOrder).filter fun entry =>
    (truthy cursor).all (sortOrder.before · entry.1)).take (limit + 1)
  let page := entries.take limit
  let data := page.filterMap fun (_, id) => entities[id]?
  let hasMore := decide (limit < entries.length)
  (data, if hasMore then page.getLast?.map Prod.fst else none, hasMore)

/-- An index as storage holds it. -/
def CreationMap.stored (index : CreationMap String) : KeyMap String :=
  index.foldl (fun stored key id => stored.insert (creationIndexKey key.1 key.2) id) ∅

structure ListParams where
  /-- `some none` is a limit that is not finite. -/
  limit : Option (Option Rat) := none
  cursor : Option String := none
  sortOrder : Option SortOrder := none

namespace WorkflowRunDO

def listSteps (params : ListParams) (store : RunStore) : List Step × Option String × Bool :=
  listByCreationTime store.stepCreated.stored store.steps (params.limit.getD (some 20)) params.cursor
    (params.sortOrder.getD .asc)

def listHooks (params : ListParams) (store : RunStore) : List Hook × Option String × Bool :=
  listByCreationTime store.hookCreated.stored store.hooks (params.limit.getD (some 100)) params.cursor
    (params.sortOrder.getD .asc)

def listEvents (limit : Option Rat) (cursor : Option String) (sortOrder : Option SortOrder) (store : RunStore) :
    List Event × Option String × Bool :=
  listByPrefixNumber store.events (limit.getD 100) cursor (sortOrder.getD .asc) Event.eventId

end WorkflowRunDO

/-- Follow the cursors until there is no more, over the store at the time of each page. -/
def followPages {σ ν : Type} (page : σ → Option String → List ν × Option String × Bool) :
    List σ → Option String → List (List ν) × Bool
  | [], _ => ([], false)
  | store :: later, cursor =>
    let (data, next, hasMore) := page store cursor
    if hasMore then
      let (pages, done) := followPages page later next
      (data :: pages, done)
    else ([data], true)

/-! One page. -/

variable {α ν σ : Type} {sortOrder : SortOrder} {cursor : Option String}

instance : IsStrictOrder String sortOrder.before where
  irrefl text same := by cases sortOrder <;> exact String.lt_irrefl text same
  trans first second third left right := by
    cases sortOrder
    · exact String.lt_trans left right
    · exact String.lt_trans right left

theorem KeyMap.mem_listed {entries : KeyMap α} {key : String} {value : α} :
    (key, value) ∈ entries.listed sortOrder ↔ entries[key]? = some value := by
  cases sortOrder
  · exact Std.ExtTreeMap.mem_toList_iff_getElem?_eq_some
  · exact List.mem_reverse.trans Std.ExtTreeMap.mem_toList_iff_getElem?_eq_some

theorem KeyMap.listed_ordered {entries : KeyMap α} :
    CursorPages.Ordered sortOrder.before (entries.listed sortOrder) := by
  have sorted : entries.toList.Pairwise fun left right => left.1 < right.1 :=
    (Std.ExtTreeMap.ordered_keys_toList (t := entries)).imp fun less => compareOfLessAndEq_eq_lt.mp less
  cases sortOrder
  · exact sorted
  · exact List.pairwise_reverse.mpr sorted

theorem KeyMap.listed_length {entries : KeyMap α} : (entries.listed sortOrder).length = entries.size := by
  cases sortOrder
  · exact Std.ExtTreeMap.length_toList
  · exact List.length_reverse.trans Std.ExtTreeMap.length_toList

/-- The entries that a listing takes from a cursor on. -/
theorem filter_listed {entries : List (String × α)} :
    (entries.filter fun entry => (truthy cursor).all (sortOrder.before · entry.1)) =
      CursorPages.beyond sortOrder.before (truthy cursor) entries := rfl

theorem page_more {limit : Nat} {entries : List (String × α)} (some_ : 0 < limit) :
    (CursorPages.next sortOrder.before limit (truthy cursor) entries).isSome =
      decide (limit < (CursorPages.beyond sortOrder.before (truthy cursor) entries).length) := by
  rw [Bool.eq_iff_iff, decide_eq_true_eq, ← Nat.not_le, ← CursorPages.next_eq_none some_,
    Option.isSome_iff_ne_none]

/-- A page of `listByPrefix` over entries under their own IDs. -/
theorem listByPrefixNumber_page {entries : KeyMap ν} {getId : ν → String} {limit : Rat} (some_ : 1 ≤ limit)
    (keyed : ∀ (key : String) value, entries[key]? = some value → getId value = key) :
    listByPrefixNumber entries limit cursor sortOrder getId =
      let listed := entries.listed sortOrder
      let next := CursorPages.next sortOrder.before limit.floor.toNat (truthy cursor) listed
      ((CursorPages.page sortOrder.before limit.floor.toNat (truthy cursor) listed).map Prod.snd,
        next, next.isSome) := by
  have lower : 1 ≤ limit.floor := Rat.le_floor_iff.mpr some_
  have longer : (limit + 1).floor.toNat = limit.floor.toNat + 1 := by
    rw [Rat.floor_add_one]
    omega
  have exceeds (size : Nat) : limit < size ↔ limit.floor.toNat < size := by
    rw [← Rat.intCast_natCast, ← Rat.floor_lt_iff]
    omega
  have positive : 0 < limit.floor.toNat := by omega
  unfold listByPrefixNumber
  rw [longer, filter_listed]
  dsimp only
  rw [page_more positive, ← List.map_take, List.take_take, Nat.min_eq_left (Nat.le_succ _),
    List.length_map, List.length_take,
    List.getLast?_map, Option.map_map]
  generalize limit.floor.toNat = count at *
  have more : decide (limit < (min (count + 1) (CursorPages.beyond sortOrder.before (truthy cursor)
      (entries.listed sortOrder)).length : Nat)) =
      decide (count < (CursorPages.beyond sortOrder.before (truthy cursor)
        (entries.listed sortOrder)).length) := by
    rw [decide_eq_decide, exceeds]
    omega
  rw [more]
  refine congrArg (_, ·) (congrArg (·, _) ?_)
  unfold CursorPages.next CursorPages.page
  simp only [decide_eq_true_eq]
  split
  · cases ends : ((CursorPages.beyond sortOrder.before (truthy cursor) (entries.listed sortOrder)).take
      count).getLast? with
    | none => rfl
    | some last =>
      have member := List.mem_of_mem_take (List.mem_of_getLast? ends)
      have stored := KeyMap.mem_listed.mp (CursorPages.mem_beyond.mp member).1
      exact congrArg some (keyed _ _ stored)
  · rfl

/-- A page of `listByCreationTime`, whose cursor is the rest of an index key. -/
theorem listByCreationTime_page {index : KeyMap String} {entities : KeyMap ν} {limit : Option Rat} :
    listByCreationTime index entities limit cursor sortOrder =
      let listed := index.listed sortOrder
      let next := CursorPages.next sortOrder.before (entityPageLimit limit) (truthy cursor) listed
      ((CursorPages.page sortOrder.before (entityPageLimit limit) (truthy cursor) listed).filterMap
        fun entry => entities[entry.2]?, next, next.isSome) := by
  have positive : 0 < entityPageLimit limit := by
    unfold entityPageLimit MAX_ENTITY_PAGE_SIZE
    omega
  unfold listByCreationTime
  rw [filter_listed]
  dsimp only
  rw [page_more positive, List.take_take, Nat.min_eq_left (Nat.le_succ _), List.length_take]
  generalize entityPageLimit limit = count at *
  have more : decide (count < min (count + 1) (CursorPages.beyond sortOrder.before (truthy cursor)
      (index.listed sortOrder)).length) =
      decide (count < (CursorPages.beyond sortOrder.before (truthy cursor) (index.listed sortOrder)).length) := by
    rw [decide_eq_decide]
    omega
  rw [more]
  refine congrArg (_, ·) (congrArg (·, _) ?_)
  unfold CursorPages.next CursorPages.page
  simp only [decide_eq_true_eq]

/-! Following the cursors. -/

section Follow

variable {page : σ → Option String → List ν × Option String × Bool} {listed : σ → List (String × α)}
  {answer : σ → List (String × α) → List ν} {limit : Nat} {stores : List σ}

/-- A page that answers what lies beyond its cursor in the listing of its store. -/
def Pages (page : σ → Option String → List ν × Option String × Bool) (sortOrder : SortOrder) (limit : Nat)
    (listed : σ → List (String × α)) (answer : σ → List (String × α) → List ν) (store : σ) : Prop :=
  ∀ cursor, page store cursor =
    (answer store (CursorPages.page sortOrder.before limit (truthy cursor) (listed store)),
      CursorPages.next sortOrder.before limit (truthy cursor) (listed store),
      (CursorPages.next sortOrder.before limit (truthy cursor) (listed store)).isSome)

/-- The cursors lead through the walk over the listings, where no key is empty. -/
theorem followPages_walk (pages : ∀ store ∈ stores, Pages page sortOrder limit listed answer store)
    (filled : ∀ store ∈ stores, ∀ entry ∈ listed store, entry.1 ≠ "") :
    followPages page stores cursor =
      (List.zipWith answer stores (CursorPages.walk sortOrder.before limit (stores.map listed) (truthy cursor)).1,
        (CursorPages.walk sortOrder.before limit (stores.map listed) (truthy cursor)).2) := by
  induction stores generalizing cursor with
  | nil => rfl
  | cons store later ih =>
    have first := pages store (List.mem_cons_self ..) cursor
    have rest (cursor : Option String) :=
      @ih cursor (fun other member => pages other (List.mem_cons_of_mem _ member))
      fun other member => filled other (List.mem_cons_of_mem _ member)
    rw [followPages, first, List.map_cons, CursorPages.walk]
    dsimp only
    cases reached : CursorPages.next sortOrder.before limit (truthy cursor) (listed store) with
    | none =>
      dsimp only
      rw [if_neg (by simp), List.zipWith_cons_cons, List.zipWith_nil_right]
    | some key =>
      have kept : truthy (some key) = some key := by
        refine truthy_eq_some.mpr ⟨rfl, ?_⟩
        unfold CursorPages.next at reached
        split at reached
        · obtain ⟨last, ends, rfl⟩ := Option.map_eq_some_iff.mp reached
          exact filled store (List.mem_cons_self ..) last
            (CursorPages.page_sublist.subset (List.mem_of_getLast? ends))
        · cases reached
      rw [Option.isSome_some, if_pos rfl, rest (some key), kept]
      rfl

/-- What a caller gets that follows the cursors from the start: each page answers some entries
of the listing at its time, no entry is answered twice and they come in order, and once there
are no more, every entry that was there throughout has been answered. -/
structure AnswersOnce (sortOrder : SortOrder) (listed : σ → List (String × α))
    (answer : σ → List (String × α) → List ν)
    (stores : List σ) (result : List (List ν) × Bool) (visited : List (List (String × α))) : Prop where
  pages : result.1 = List.zipWith answer stores visited
  fewer : visited.length ≤ stores.length
  stored : ∀ visit ∈ stores.zip visited, visit.2.Sublist (listed visit.1)
  once : visited.flatten.Pairwise fun left right => sortOrder.before left.1 right.1
  complete : result.2 = true → ∀ key, (∀ store ∈ stores, ∃ value, (key, value) ∈ listed store) →
    ∃ value, (key, value) ∈ visited.flatten

theorem followPages_answersOnce (some_ : 0 < limit)
    (ordered : ∀ store ∈ stores, CursorPages.Ordered sortOrder.before (listed store))
    (pages : ∀ store ∈ stores, Pages page sortOrder limit listed answer store)
    (filled : ∀ store ∈ stores, ∀ entry ∈ listed store, entry.1 ≠ "") :
    ∃ visited, AnswersOnce sortOrder listed answer stores (followPages page stores none) visited := by
  have walk := @followPages_walk _ _ _ sortOrder none _ _ _ _ _ pages filled
  have sorted : ∀ entries ∈ stores.map listed, CursorPages.Ordered sortOrder.before entries := by
    intro entries member
    obtain ⟨store, there, rfl⟩ := List.mem_map.mp member
    exact ordered store there
  obtain ⟨fewer, stored⟩ :=
    @CursorPages.walk_stored _ _ sortOrder.before _ limit (truthy none) (stores.map listed)
  rw [List.length_map] at fewer
  refine ⟨_, {
    pages := congrArg Prod.fst walk
    fewer
    stored := fun visit member => ?_
    once := (CursorPages.walk_ordered sorted).1
    complete := fun done key present => ?_ }⟩
  · refine stored (listed visit.1, visit.2) ?_
    rw [List.zip_map_left]
    exact List.mem_map.mpr ⟨visit, member, rfl⟩
  · refine CursorPages.walk_complete some_ sorted (fun entries member => ?_) nofun
      ((congrArg Prod.snd walk).symm.trans done)
    obtain ⟨store, there, rfl⟩ := List.mem_map.mp member
    exact present store there

theorem zipWith_replicate {store : σ} {pages : Nat} {visited : List (List (String × α))}
    (fewer : visited.length ≤ pages) :
    List.zipWith answer (List.replicate pages store) visited = visited.map (answer store) := by
  induction visited generalizing pages with
  | nil => exact List.zipWith_nil_right
  | cons visit visited ih =>
    cases pages with
    | zero => exact absurd fewer (Nat.not_succ_le_zero _)
    | succ pages =>
      rw [List.replicate_succ, List.zipWith_cons_cons, ih (Nat.le_of_succ_le_succ fewer), List.map_cons]

theorem flatten_map {read : List (String × α) → List ν}
    (appends : ∀ left right, read (left ++ right) = read left ++ read right)
    {visited : List (List (String × α))} :
    (visited.map read).flatten = read visited.flatten := by
  induction visited with
  | nil =>
    have twice := congrArg List.length (appends [] [])
    rw [List.length_append, List.append_nil] at twice
    exact (List.length_eq_zero_iff.mp (Nat.left_eq_add.mp twice)).symm
  | cons visit visited ih => rw [List.map_cons, List.flatten_cons, List.flatten_cons, appends, ih]

/-- Over a store that stays, the pages are the whole listing, cut in order. -/
theorem followPages_replicate {store : σ} {pages : Nat} (some_ : 0 < limit)
    (ordered : CursorPages.Ordered sortOrder.before (listed store))
    (paged : Pages page sortOrder limit listed answer store)
    (filled : ∀ entry ∈ listed store, entry.1 ≠ "")
    (appends : ∀ left right, answer store (left ++ right) = answer store left ++ answer store right)
    (enough : (listed store).length < pages) :
    (followPages page (List.replicate pages store) none).2 = true ∧
      (followPages page (List.replicate pages store) none).1.flatten = answer store (listed store) := by
  have same : ∀ other ∈ List.replicate pages store, other = store := fun other => List.eq_of_mem_replicate
  rw [followPages_walk (fun other member => same other member ▸ paged) fun other member =>
    same other member ▸ filled,
    List.map_replicate]
  have whole : CursorPages.beyond sortOrder.before none (listed store) = listed store :=
    List.filter_eq_self.mpr fun _ _ => rfl
  obtain ⟨done, flat⟩ := @CursorPages.walk_replicate _ _ sortOrder.before _ limit none (listed store)
    _ pages some_ ordered
    (by rwa [whole])
  obtain ⟨fewer, -⟩ := @CursorPages.walk_stored _ _ sortOrder.before _ limit none
    (List.replicate pages (listed store))
  rw [List.length_replicate] at fewer
  rw [whole] at flat
  refine ⟨done, ?_⟩
  dsimp only
  rw [show truthy none = none from rfl, zipWith_replicate fewer, flatten_map appends, flat]

end Follow

/-! The listings of a run cell. -/

theorem creationIndexKey_text {createdAt : Nat} {id : String} :
    (creationIndexKey createdAt id).toList = (toISOString createdAt).toList ++ ':' :: id.toList := by
  have colon : ":".toList = [':'] := rfl
  simp only [creationIndexKey, toString, String.toList_append, colon, List.append_assoc, List.singleton_append]

theorem creationIndexKey_ne {createdAt : Nat} {id : String} : creationIndexKey createdAt id ≠ "" := by
  intro empty
  have text := congrArg String.toList empty
  rw [creationIndexKey_text] at text
  exact List.append_ne_nil_of_right_ne_nil _ (List.cons_ne_nil _ _) text

theorem creationIndexKey_ordered {createdAt laterAt : Nat} {id laterId : String}
    (digits : civilYear (civilDay createdAt) ≤ 9999) (laterEarly : laterAt < FIVE_DIGIT_YEARS_MS)
    (less : createdAt < laterAt ∨ createdAt = laterAt ∧ id < laterId) :
    creationIndexKey createdAt id < creationIndexKey laterAt laterId := by
  rw [String.lt_iff, creationIndexKey_text, creationIndexKey_text]
  rcases less with less | ⟨same, less⟩
  · refine PaddedDigits.append_lt_append (String.lt_iff.mp (toISOString_lt less laterEarly)) ?_
    rw [toISOString_length digits, toISOString_length (civilYear_digits laterEarly)]
  · rw [same]
    exact List.append_left_lt (List.cons_lt_cons_self.mpr (String.lt_iff.mp less))

/-- Up to the year 9999 the keys of an index come by creation time, then by ID. -/
theorem creationIndexKey_lt {createdAt laterAt : Nat} {id laterId : String}
    (early : createdAt < FIVE_DIGIT_YEARS_MS)
    (laterEarly : laterAt < FIVE_DIGIT_YEARS_MS) :
    creationIndexKey createdAt id < creationIndexKey laterAt laterId ↔
      createdAt < laterAt ∨ createdAt = laterAt ∧ id < laterId := by
  have digits := civilYear_digits early
  have laterDigits := civilYear_digits laterEarly
  refine ⟨fun less => ?_, creationIndexKey_ordered digits laterEarly⟩
  rcases Nat.lt_trichotomy createdAt laterAt with before | same | after
  · exact .inl before
  · refine .inr ⟨same, ?_⟩
    rcases lt_trichotomy id laterId with before | sameId | after
    · exact before
    · rw [same, sameId] at less
      exact absurd less (String.lt_irrefl _)
    · have back := creationIndexKey_ordered laterDigits early (.inr ⟨same.symm, after⟩)
      exact absurd (String.lt_trans less back) (String.lt_irrefl _)
  · have back := @creationIndexKey_ordered laterAt createdAt laterId id laterDigits early (.inl after)
    exact absurd (String.lt_trans less back) (String.lt_irrefl _)

/-- Entries that are stored under their own IDs, none of which is empty. -/
def Keyed (getId : ν → String) (entries : KeyMap ν) : Prop :=
  ∀ (key : String) value, entries[key]? = some value → getId value = key ∧ key ≠ ""

/-- An index whose keys are made of creation times and IDs. -/
def CreationKeyed (index : KeyMap String) : Prop :=
  ∀ (key : String) value, index[key]? = some value → ∃ createdAt id, key = creationIndexKey createdAt id

theorem Keyed.pages {getId : ν → String} {entries : KeyMap ν} {limit : Rat} (some_ : 1 ≤ limit)
    (keyed : Keyed getId entries) :
    Pages (fun entries cursor => listByPrefixNumber entries limit cursor sortOrder getId)
      sortOrder limit.floor.toNat
      (fun entries => entries.listed sortOrder) (fun _ page => page.map Prod.snd) entries :=
  fun _ => listByPrefixNumber_page some_ fun key value stored => (keyed key value stored).1

theorem listByCreationTime_pages {requested : Option Rat} {store : KeyMap String × KeyMap ν} :
    Pages (fun store cursor => listByCreationTime store.1 store.2 requested cursor sortOrder) sortOrder
      (entityPageLimit requested) (fun store => store.1.listed sortOrder)
      (fun store page => page.filterMap fun entry => store.2[entry.2]?) store :=
  fun _ => listByCreationTime_page

theorem Keyed.filled {getId : ν → String} {entries : KeyMap ν} (keyed : Keyed getId entries) :
    ∀ entry ∈ entries.listed sortOrder, entry.1 ≠ "" :=
  fun _ member => (keyed _ _ (KeyMap.mem_listed.mp member)).2

theorem CreationKeyed.filled {index : KeyMap String} (keyed : CreationKeyed index) :
    ∀ entry ∈ index.listed sortOrder, entry.1 ≠ "" := by
  intro entry member
  obtain ⟨createdAt, id, same⟩ := keyed _ _ (KeyMap.mem_listed.mp member)
  exact same ▸ creationIndexKey_ne

theorem floor_pos {limit : Rat} (some_ : 1 ≤ limit) : 0 < limit.floor.toNat := by
  have lower : 1 ≤ limit.floor := Rat.le_floor_iff.mpr some_
  omega

theorem entityPageLimit_pos {limit : Option Rat} : 0 < entityPageLimit limit := by
  unfold entityPageLimit MAX_ENTITY_PAGE_SIZE
  omega

theorem CreationMap.stored_keyed {index : CreationMap String} : CreationKeyed (CreationMap.stored index) := by
  have inserted (entries : List ((Nat × String) × String)) (stored : KeyMap String)
    (keyed : CreationKeyed stored) :
      CreationKeyed (entries.foldl (fun stored entry =>
        stored.insert (creationIndexKey entry.1.1 entry.1.2) entry.2) stored) := by
    induction entries generalizing stored with
    | nil => exact keyed
    | cons entry entries ih =>
      refine ih _ fun key value found => ?_
      rw [Std.ExtTreeMap.getElem?_insert] at found
      split at found
      · rename_i same
        exact ⟨entry.1.1, entry.1.2, (Std.LawfulEqCmp.eq_of_compare same).symm⟩
      · exact keyed key value found
  unfold CreationMap.stored
  rw [Std.ExtTreeMap.foldl_eq_foldl_toList]
  exact inserted _ ∅ fun key value found => by simp at found

/-- Following the cursors of the steps of a run answers each step once. -/
theorem listSteps_once (limit : Option (Option Rat)) (sortOrder : SortOrder) (stores : List RunStore) :
    ∃ visited, AnswersOnce sortOrder (fun store => store.stepCreated.stored.listed sortOrder)
      (fun store page => page.filterMap fun entry => store.steps[entry.2]?) stores
      (followPages (fun store cursor =>
        WorkflowRunDO.listSteps { limit, cursor, sortOrder := some sortOrder } store) stores none)
      visited :=
  followPages_answersOnce (@entityPageLimit_pos (limit.getD (some 20))) (fun _ _ => KeyMap.listed_ordered)
    (fun _ _ _ => listByCreationTime_page) fun _ _ => CreationMap.stored_keyed.filled

/-- Following the cursors of the hooks of a run answers each hook once. -/
theorem listHooks_once (limit : Option (Option Rat)) (sortOrder : SortOrder) (stores : List RunStore) :
    ∃ visited, AnswersOnce sortOrder (fun store => store.hookCreated.stored.listed sortOrder)
      (fun store page => page.filterMap fun entry => store.hooks[entry.2]?) stores
      (followPages (fun store cursor =>
        WorkflowRunDO.listHooks { limit, cursor, sortOrder := some sortOrder } store) stores none)
      visited :=
  followPages_answersOnce (@entityPageLimit_pos (limit.getD (some 100))) (fun _ _ => KeyMap.listed_ordered)
    (fun _ _ _ => listByCreationTime_page) fun _ _ => CreationMap.stored_keyed.filled

/-- Following the cursors of a listing answers every entry once, in the order of the keys: the
whole listing of a store that stays, and of one that changes between the pages each entry that
is there throughout. An index of steps or hooks comes by creation time, then by ID. -/
theorem entityPages_once (getId : ν → String) (limit : Rat) (requested : Option Rat) (sortOrder : SortOrder)
    (some_ : 1 ≤ limit) :
    (∀ (entries : KeyMap ν) pages, Keyed getId entries → entries.size < pages →
      let result := followPages (fun entries cursor => listByPrefixNumber entries limit cursor sortOrder getId)
        (List.replicate pages entries) none
      result.2 = true ∧ result.1.flatten = (entries.listed sortOrder).map Prod.snd) ∧
    (∀ stores : List (KeyMap ν), (∀ entries ∈ stores, Keyed getId entries) →
      ∃ visited, AnswersOnce sortOrder (fun entries => entries.listed sortOrder)
        (fun _ page => page.map Prod.snd) stores
        (followPages (fun entries cursor => listByPrefixNumber entries limit cursor sortOrder getId)
          stores none) visited) ∧
    (∀ (index : KeyMap String) (entities : KeyMap ν) pages, CreationKeyed index → index.size < pages →
      let result := followPages (fun store cursor =>
        listByCreationTime store.1 store.2 requested cursor sortOrder)
        (List.replicate pages (index, entities)) none
      result.2 = true ∧ result.1.flatten = (index.listed sortOrder).filterMap fun entry => entities[entry.2]?) ∧
    (∀ stores : List (KeyMap String × KeyMap ν), (∀ store ∈ stores, CreationKeyed store.1) →
      ∃ visited, AnswersOnce sortOrder (fun store => store.1.listed sortOrder)
        (fun store page => page.filterMap fun entry => store.2[entry.2]?) stores
        (followPages (fun store cursor => listByCreationTime store.1 store.2 requested cursor sortOrder)
          stores none) visited) ∧
    ∀ createdAt laterAt id laterId, createdAt < FIVE_DIGIT_YEARS_MS → laterAt < FIVE_DIGIT_YEARS_MS →
      (creationIndexKey createdAt id < creationIndexKey laterAt laterId ↔
        createdAt < laterAt ∨ createdAt = laterAt ∧ id < laterId) := by
  refine ⟨fun entries pages keyed enough => ?_, fun stores keyed => ?_,
    fun index entities pages keyed enough => ?_,
    fun stores keyed => ?_, fun createdAt laterAt id laterId early laterEarly =>
      creationIndexKey_lt early laterEarly⟩
  · exact @followPages_replicate _ _ _ sortOrder _ (fun entries : KeyMap ν => entries.listed sortOrder)
      (fun _ page => page.map Prod.snd) _ entries pages (floor_pos some_)
        KeyMap.listed_ordered (keyed.pages some_)
      keyed.filled (fun _ _ => List.map_append) (by rwa [KeyMap.listed_length])
  · exact followPages_answersOnce (floor_pos some_) (fun _ _ => KeyMap.listed_ordered)
      (fun entries member => (keyed entries member).pages some_) fun entries member =>
        (keyed entries member).filled
  · exact @followPages_replicate _ _ _ sortOrder _ (fun store : KeyMap String × KeyMap ν =>
      store.1.listed sortOrder)
      (fun store page => page.filterMap fun entry => store.2[entry.2]?) (entityPageLimit requested)
        (index, entities) pages
      entityPageLimit_pos
      KeyMap.listed_ordered
      listByCreationTime_pages keyed.filled
      (fun _ _ => List.filterMap_append)
      (by rwa [KeyMap.listed_length])
  · exact followPages_answersOnce entityPageLimit_pos (fun _ _ => KeyMap.listed_ordered)
      (fun _ _ => listByCreationTime_pages) fun store member => (keyed store member).filled

theorem pair_keyed {first second key value : String}
    (stored : ((∅ : KeyMap String).insert first first |>.insert second second)[key]? = some value) :
    value = key ∧ (key = first ∨ key = second) := by
  rw [Std.ExtTreeMap.getElem?_insert, Std.ExtTreeMap.getElem?_insert] at stored
  split at stored
  · rename_i same
    have at_ := Std.LawfulEqCmp.eq_of_compare same
    exact ⟨(Option.some.inj stored).symm.trans at_, .inr at_.symm⟩
  · split at stored
    · rename_i same
      have at_ := Std.LawfulEqCmp.eq_of_compare same
      exact ⟨(Option.some.inj stored).symm.trans at_, .inl at_.symm⟩
    · simp at stored

theorem entityPages_once_descending :
    let entries : KeyMap String := (∅ : KeyMap String).insert "a" "a" |>.insert "b" "b"
    (followPages (fun entries cursor => listByPrefixNumber entries 1 cursor .desc id)
      (List.replicate 3 entries) none).1.flatten =
      ["b", "a"] ∧ creationIndexKey 1700000000000 "b" < creationIndexKey 1700000000001 "a" := by
  intro entries
  have pages := @entityPages_once String id 1 none .desc (by decide)
  have keyed : Keyed id entries := by
    intro key value stored
    obtain ⟨same, rfl | rfl⟩ := pair_keyed stored
    · exact ⟨same, by decide⟩
    · exact ⟨same, by decide⟩
  refine ⟨(pages.1 entries 3 keyed (by decide)).2.trans (by decide), ?_⟩
  exact (pages.2.2.2.2 1700000000000 1700000000001 "b" "a" (by decide) (by decide)).mpr (.inl (by decide))

/-- An entry under the empty ID makes a cursor that starts the listing again, and years of five
digits come before all others. -/
theorem entityPages_once_empty :
    (¬ ∀ (entries : KeyMap String) (limit : Rat) (sortOrder : SortOrder) (pages : Nat),
      (∀ (key : String) value, entries[key]? = some value → value = key) → 1 ≤ limit → entries.size < pages →
        (followPages (fun entries cursor => listByPrefixNumber entries limit cursor sortOrder id)
          (List.replicate pages entries) none).2 = true) ∧
    ¬ ∀ createdAt laterAt id laterId, createdAt < laterAt →
      creationIndexKey createdAt id < creationIndexKey laterAt laterId := by
  constructor
  · intro ends
    have result := ends ((∅ : KeyMap String).insert "" "" |>.insert "a" "a") 1 .asc 3 (fun _ _ stored =>
      (pair_keyed stored).1)
      (by decide) (by decide)
    revert result
    decide +kernel
  · intro ordered
    exact absurd (ordered 0 FIVE_DIGIT_YEARS_MS "a" "a" (by decide)) (by decide +kernel)

end CelldWorld
