import Mathlib.Algebra.Order.BigOperators.Group.List
import Mathlib.Algebra.Order.Ring.Nat
import Mathlib.Data.List.Lex
import CelldWorld.Library.SortedPages
import CelldWorld.RunCatalogStore

namespace CelldWorld

def RUN_CATALOG_SHARDS : Nat := 16
def MAX_INDEX_LIST_SIZE : Nat := 1001

/-- The bytes that a `TextEncoder` makes of a name, its UTF-8 encoding. -/
def encode (name : String) : List Nat := name.toUTF8.data.toList.map UInt8.toNat

def compareBytes : List Nat → List Nat → Int
  | left :: lefts, right :: rights =>
    let difference : Int := left - right
    if difference ≠ 0 then difference else compareBytes lefts rights
  | lefts, rights => lefts.length - rights.length

/-- The storage of a shard: its records as storage lists them, in UTF-8 byte order. -/
structure CatalogStorage (α : Type) where
  records : List (String × α)
  sorted : records.Pairwise fun left right => encode left.1 < encode right.1

structure CatalogListOptions where
  keyPrefix : Option String := none
  cursor : Option String := none
  /-- Exclusive upper bound for creation-time retention scans. -/
  endKey : Option String := none
  /-- Absent where the limit is absent or not finite. -/
  limit : Option Rat := none
  reverse : Bool := false

structure CatalogListPage (entry : Type) where
  keys : List entry
  listComplete : Bool
  cursor : Option String
  deriving DecidableEq, Repr

/-- An entry of the merged index; `sourceShard` is there for exact follow-up mutation. -/
structure CatalogEntry (α : Type) where
  name : String
  value : α
  sourceShard : String
  deriving DecidableEq, Repr

/-- A requested limit, rounded down and clamped to a page. -/
def pageLimit (maximum : Nat) (limit : Option Rat) : Nat :=
  (min (maximum : Int) (max 1 ((limit.map Rat.floor).getD maximum))).toNat

/-- The shard number with two hexadecimal digits. -/
def catalogShardName (shard : Nat) : String :=
  "run-catalog:v1:" ++ String.ofList (List.leftpad 2 '0' (Nat.toDigits 16 shard))

def allRunCatalogShardNames : List String := (List.range RUN_CATALOG_SHARDS).map catalogShardName

variable {α : Type}

/-- `storage.list`: the records under a prefix, after one bound and before another. -/
def CatalogStorage.list (storage : CatalogStorage α) (keyPrefix : String) (startAfter endKey : Option String)
    (limit : Nat) (reverse : Bool) : List (String × α) :=
  let matched := storage.records.filter fun (key, _) => keyPrefix.toList.isPrefixOf key.toList &&
    startAfter.all (encode · < encode key) && endKey.all (encode key < encode ·)
  (if reverse then matched.reverse else matched).take limit

namespace RunCatalogDO

/-- `RunCatalogDO.list` -/
def list (options : CatalogListOptions) (storage : CatalogStorage α) : CatalogListPage (String × α) :=
  let limit := pageLimit MAX_INDEX_LIST_SIZE options.limit
  let entries := storage.list ((truthy options.keyPrefix).getD "run")
    (if options.reverse then none else options.cursor)
    (if options.reverse then options.cursor.or options.endKey else options.endKey) (limit + 1) options.reverse
  let page := entries.take limit
  let listComplete := decide (entries.length ≤ limit)
  { keys := page, listComplete, cursor := if listComplete then none else page.getLast?.map Prod.fst }

end RunCatalogDO

/-- The comparison of two candidates, reversed for a reversed listing. -/
def compareEntries (reverse : Bool) (left right : CatalogEntry α) : Int :=
  let compared := compareBytes (encode left.name) (encode right.name)
  if reverse then -compared else compared

/-- `listRuns` over the shards of the catalog, which are found by their names. -/
def listRuns (shards : String → CatalogStorage α) (options : CatalogListOptions) :
    CatalogListPage (CatalogEntry α) :=
  let limit := pageLimit 1000 options.limit
  let pages := allRunCatalogShardNames.map fun name =>
    (name, RunCatalogDO.list { options with limit := some (limit + 1) } (shards name))
  let candidates := (pages.flatMap fun (sourceShard, page) =>
    page.keys.map fun (name, value) => (⟨name, value, sourceShard⟩ : CatalogEntry α)).insertionSort
      fun left right => compareEntries options.reverse left right ≤ 0
  let page := candidates.take limit
  let listComplete := decide (candidates.length ≤ limit) && pages.all fun (_, page) => page.listComplete
  { keys := page, listComplete, cursor := if listComplete then none else page.getLast?.map (·.name) }

namespace CatalogListOptions
variable (options : CatalogListOptions)

/-- The entry is under the prefix and between the bounds. In a reversed listing the cursor
stands in place of the exclusive end. -/
def admits (name : String) : Bool :=
  ((truthy options.keyPrefix).getD "run").toList.isPrefixOf name.toList &&
    if options.reverse then (options.cursor.or options.endKey).all (encode name < encode ·)
    else options.cursor.all (encode · < encode name) && options.endKey.all (encode name < encode ·)

/-- The order of a listing, in bytes of the names. -/
def ordered (left right : CatalogEntry α) : Prop :=
  if options.reverse then encode right.name ≤ encode left.name else encode left.name ≤ encode right.name

instance : DecidableRel (options.ordered (α := α)) := fun left right => by
  unfold ordered
  infer_instance

end CatalogListOptions

/-- The entries of all shards. -/
def catalogEntries (shards : String → CatalogStorage α) : List (CatalogEntry α) :=
  allRunCatalogShardNames.flatMap fun sourceShard => (shards sourceShard).records.map fun (name, value) =>
    ⟨name, value, sourceShard⟩

/-- The entries of one shard that a listing admits, in its order. -/
def CatalogStorage.admitted (options : CatalogListOptions) (shards : String → CatalogStorage α)
    (sourceShard : String) :
    List (CatalogEntry α) :=
  let matched := (shards sourceShard).records.filter fun (name, _) => options.admits name
  (if options.reverse then matched.reverse else matched).map fun (name, value) => ⟨name, value, sourceShard⟩

/-- The admitted entries of all shards, in the order of the listing. -/
def catalogOrder (shards : String → CatalogStorage α) (options : CatalogListOptions) : List (CatalogEntry α) :=
  (allRunCatalogShardNames.flatMap (CatalogStorage.admitted options shards)).insertionSort options.ordered

theorem encode_injective : Function.Injective encode := by
  intro left right same
  have bytes := List.map_injective_iff.mpr (fun _ _ => UInt8.toNat_inj.mp) same
  exact String.toByteArray_inj.mp (ByteArray.ext (Array.toList_inj.mp bytes))

theorem compareBytes_swap (left right : List Nat) : compareBytes right left = -compareBytes left right := by
  induction left generalizing right with
  | nil => cases right <;> simp [compareBytes]
  | cons first left ih =>
    cases right with
    | nil => simp [compareBytes]
    | cons second right =>
      simp only [compareBytes, ih right]
      split <;> split <;> omega

/-- The byte comparison is the order in which storage lists. -/
theorem compareBytes_lt (left right : List Nat) : compareBytes left right < 0 ↔ left < right := by
  induction left generalizing right with
  | nil =>
    cases right with
    | nil => simp [compareBytes]
    | cons second right => simp [compareBytes]; omega
  | cons first left ih =>
    cases right with
    | nil => simp [compareBytes]; omega
    | cons second right =>
      simp only [compareBytes, List.cons_lt_cons_iff, ← ih right]
      split
      · omega
      · have same : first = second := by omega
        simp [same]

theorem compareEntries_le (options : CatalogListOptions) (left right : CatalogEntry α) :
    compareEntries options.reverse left right ≤ 0 ↔ options.ordered left right := by
  have forward := compareBytes_lt (encode right.name) (encode left.name)
  have backward := compareBytes_lt (encode left.name) (encode right.name)
  have swap := compareBytes_swap (encode left.name) (encode right.name)
  unfold compareEntries CatalogListOptions.ordered
  cases options.reverse with
  | true =>
    simp only [if_true, ← not_lt, ← backward]
    omega
  | false =>
    simp only [Bool.false_eq_true, if_false, ← not_lt, ← forward]
    omega

namespace CatalogListOptions
variable (options : CatalogListOptions)

instance : IsTrans (CatalogEntry α) options.ordered where
  trans first middle last head tail := by
    unfold ordered at *
    by_cases reversed : options.reverse = true
    · rw [if_pos reversed] at *
      exact le_trans tail head
    · rw [if_neg reversed] at *
      exact le_trans head tail

instance : Std.Total (options.ordered (α := α)) where
  total left right := by
    unfold ordered
    split <;> exact le_total ..

/-- An entry comes strictly before another one. -/
def before (left right : CatalogEntry α) : Prop :=
  if options.reverse then encode right.name < encode left.name else encode left.name < encode right.name

instance : DecidableRel (options.before (α := α)) := fun left right => by
  unfold before
  infer_instance

theorem before_irrefl {options : CatalogListOptions} {entry : CatalogEntry α} : ¬ options.before entry entry := by
  unfold before
  split <;> exact lt_irrefl _

theorem before_asymm {options : CatalogListOptions} {left right : CatalogEntry α}
    (before : options.before left right) :
    ¬ options.before right left := by
  unfold CatalogListOptions.before at before ⊢
  split at before
  · rename_i reversed
    rw [if_pos reversed]
    exact lt_asymm before
  · rename_i forward
    rw [if_neg forward]
    exact lt_asymm before

end CatalogListOptions

section Listing
variable {shards : String → CatalogStorage α} {options : CatalogListOptions}

/-- A limit that fits is kept. -/
theorem pageLimit_next {maximum limit : Nat} (fits : limit + 1 ≤ maximum) :
    pageLimit maximum (some ((limit : Rat) + 1)) = limit + 1 := by
  have whole : ((limit : Rat) + 1).floor = ((limit + 1 : Nat) : Int) := by
    have cast : (limit : Rat) + 1 = ((limit + 1 : Nat) : Rat) := by push_cast; rfl
    rw [cast]
    exact Rat.floor_intCast _
  simp only [pageLimit, Option.map_some, Option.getD_some, whole]
  omega

theorem pageLimit_bounds {maximum : Nat} (limit : Option Rat) (some_ : 1 ≤ maximum) :
    1 ≤ pageLimit maximum limit ∧ pageLimit maximum limit ≤ maximum := by
  unfold pageLimit
  omega

/-- The page of a shard is the beginning of what it admits. -/
theorem RunCatalogDO.list_admitted {sourceShard : String} {limit : Nat} (fits : limit + 1 ≤ MAX_INDEX_LIST_SIZE) :
    let page := RunCatalogDO.list { options with limit := some ((limit : Rat) + 1) } (shards sourceShard)
    let admitted := CatalogStorage.admitted options shards sourceShard
    (page.keys.map fun (name, value) => (⟨name, value, sourceShard⟩ : CatalogEntry α)) =
      admitted.take (limit + 1) ∧
      page.listComplete = decide (admitted.length ≤ limit + 1) := by
  unfold RunCatalogDO.list CatalogStorage.admitted CatalogStorage.list CatalogListOptions.admits
  simp only [pageLimit_next fits]
  cases options.reverse with
  | true =>
    simp [List.take_take]
  | false =>
    simp [List.take_take, Bool.and_assoc]

/-- What a shard admits is in the order of the listing. -/
theorem CatalogStorage.admitted_sorted (sourceShard : String) :
    (CatalogStorage.admitted options shards sourceShard).Pairwise options.ordered := by
  have stored := ((shards sourceShard).sorted.sublist
    (List.filter_sublist (p := fun record => options.admits record.1)))
  unfold CatalogStorage.admitted CatalogListOptions.ordered
  simp only [List.pairwise_map]
  cases options.reverse with
  | true => exact List.pairwise_reverse.mpr (stored.imp fun less => le_of_lt less)
  | false => exact stored.imp fun less => le_of_lt less

theorem length_catalogOrder : (catalogOrder shards options).length =
    (allRunCatalogShardNames.map fun name => (CatalogStorage.admitted options shards name).length).sum := by
  unfold catalogOrder
  rw [List.length_insertionSort, List.length_flatMap]

/-- Short pages of all shards make a page of the union, and it is complete if and only if
no admitted entry is left. -/
theorem listRuns_eq : listRuns shards options =
    let limit := pageLimit 1000 options.limit
    let page := (catalogOrder shards options).take limit
    let listComplete := decide ((catalogOrder shards options).length ≤ limit)
    { keys := page, listComplete, cursor := if listComplete then none else page.getLast?.map (·.name) } := by
  unfold listRuns
  generalize bound : pageLimit 1000 options.limit = limit
  have fits : limit + 1 ≤ MAX_INDEX_LIST_SIZE := by
    have := (pageLimit_bounds options.limit (show 1 ≤ 1000 by decide)).2
    have size : MAX_INDEX_LIST_SIZE = 1001 := rfl
    omega
  have pages := fun name => @RunCatalogDO.list_admitted α shards options name limit fits
  have gathered : (allRunCatalogShardNames.map fun name =>
      (name, RunCatalogDO.list { options with limit := some ((limit : Rat) + 1) } (shards name))).flatMap
        (fun (sourceShard, page) => page.keys.map fun (name, value) =>
          (⟨name, value, sourceShard⟩ : CatalogEntry α)) =
      allRunCatalogShardNames.flatMap fun name =>
        (CatalogStorage.admitted options shards name).take (limit + 1) := by
    rw [List.flatMap_map]
    exact congrArg (fun step => List.flatMap step allRunCatalogShardNames) (funext fun name => (pages name).1)
  have order := SortedPages.insertionSort_congr (compareEntries_le (α := α) options)
    (allRunCatalogShardNames.flatMap fun name => (CatalogStorage.admitted options shards name).take (limit + 1))
  have taken : ((allRunCatalogShardNames.flatMap fun name =>
      (CatalogStorage.admitted options shards name).take (limit + 1)).insertionSort options.ordered).take limit =
      (catalogOrder shards options).take limit :=
    SortedPages.take_insertionSort_flatMap (limit + 1) (Nat.le_succ limit) fun name _ =>
      CatalogStorage.admitted_sorted name
  have complete : (decide (((allRunCatalogShardNames.flatMap fun name =>
      (CatalogStorage.admitted options shards name).take (limit + 1)).insertionSort options.ordered).length ≤
        limit) &&
      (allRunCatalogShardNames.map fun name =>
        (name, RunCatalogDO.list { options with limit := some ((limit : Rat) + 1) } (shards name))).all
          fun (_, page) => page.listComplete) = decide ((catalogOrder shards options).length ≤ limit) := by
    rw [length_catalogOrder, List.length_insertionSort, List.length_flatMap, List.all_map]
    simp only [Function.comp_def, (pages _).2, List.length_take]
    rw [Bool.eq_iff_iff, Bool.and_eq_true, decide_eq_true_eq, decide_eq_true_eq, List.all_eq_true]
    simp only [decide_eq_true_eq]
    have fitting := SortedPages.sum_min_le_iff allRunCatalogShardNames
      (fun name => (CatalogStorage.admitted options shards name).length) limit
    refine ⟨fun holds => fitting.mp holds.1, fun total => ⟨fitting.mpr total, fun name member => ?_⟩⟩
    have one := List.single_le_sum (fun _ _ => Nat.zero_le _) _ (List.mem_map.mpr ⟨name, member, rfl⟩ :
      (CatalogStorage.admitted options shards name).length ∈
        allRunCatalogShardNames.map fun name => (CatalogStorage.admitted options shards name).length)
    omega
  simp only [gathered, order, taken, complete]

/-- The order of a listing is the admitted part of the union. -/
theorem catalogOrder_perm : (catalogOrder shards options).Perm
    ((catalogEntries shards).filter fun entry => options.admits entry.name) := by
  refine (List.perm_insertionSort _ _).trans ?_
  unfold catalogEntries
  rw [List.filter_flatMap]
  refine List.Perm.flatMap_left _ fun name _ => ?_
  unfold CatalogStorage.admitted
  rw [List.filter_map]
  refine List.Perm.map _ ?_
  split
  · exact List.reverse_perm _
  · exact .refl _

theorem catalogOrder_sorted : (catalogOrder shards options).Pairwise options.ordered :=
  List.pairwise_insertionSort _ _

/-- No visible name is in two shards. -/
def DistinctNames (shards : String → CatalogStorage α) (visible : String → Bool) : Prop :=
  (((catalogEntries shards).filter fun entry => visible entry.name).map (·.name)).Nodup

variable {visible : String → Bool}

theorem catalogOrder_strict (distinct : DistinctNames shards visible)
    (within : ∀ name, options.admits name = true → visible name = true) :
    (catalogOrder shards options).Pairwise options.before := by
  have admitted : ((catalogEntries shards).filter fun entry => options.admits entry.name).Sublist
      ((catalogEntries shards).filter fun entry => visible entry.name) :=
    List.monotone_filter_right _ fun entry => within entry.name
  have names : ((catalogOrder shards options).map (·.name)).Nodup :=
    (catalogOrder_perm.map _).nodup_iff.mpr (distinct.sublist (admitted.map _))
  have different := List.pairwise_map.mp names
  refine catalogOrder_sorted.and different |>.imp fun {left right} both => ?_
  obtain ⟨le, ne⟩ := both
  unfold CatalogListOptions.ordered at le
  unfold CatalogListOptions.before
  split
  · rename_i reversed
    rw [if_pos reversed] at le
    exact lt_of_le_of_ne le fun same => ne (encode_injective same).symm
  · rename_i forward
    rw [if_neg forward] at le
    exact lt_of_le_of_ne le fun same => ne (encode_injective same)

/-- Follow the cursors of a listing until it is complete; `none` if `fuel` pages were not
enough. -/
def followRuns (shards : String → CatalogStorage α) : Nat → CatalogListOptions → Option (List (CatalogEntry α))
  | 0, _ => none
  | fuel + 1, options =>
    let page := listRuns shards options
    if page.listComplete then some page.keys
    else (followRuns shards fuel { options with cursor := page.cursor }).map (page.keys ++ ·)

/-- From the cursor of an admitted entry on, a listing admits what lies beyond that entry. -/
theorem admits_cursor {entry other : CatalogEntry α} (admitted : options.admits entry.name = true) :
    ({ options with cursor := some entry.name } : CatalogListOptions).admits other.name = true ↔
      options.admits other.name = true ∧ options.before entry other := by
  unfold CatalogListOptions.admits at admitted ⊢
  unfold CatalogListOptions.before
  obtain ⟨-, within⟩ := (Bool.and_eq_true _ _).mp admitted
  simp only [Bool.and_eq_true, and_assoc]
  refine and_congr_right fun _ => ?_
  cases reversed : options.reverse with
  | true =>
    simp only [reversed, if_true, Option.some_or, Option.all_some, decide_eq_true_eq,
      Option.all_eq_true] at within ⊢
    exact ⟨fun less => ⟨fun bound some_ => lt_trans less (within bound some_), less⟩, And.right⟩
  | false =>
    simp only [reversed, Bool.false_eq_true, if_false, Option.all_some, decide_eq_true_eq, Option.all_eq_true,
      Bool.and_eq_true] at within ⊢
    refine ⟨fun ⟨less, upTo⟩ => ⟨⟨fun bound some_ => lt_trans (within.1 bound some_) less, upTo⟩, less⟩, ?_⟩
    exact fun ⟨⟨_, upTo⟩, less⟩ => ⟨less, upTo⟩

/-- The cursor of a page leads to the rest of the listing. -/
theorem catalogOrder_cursor {count : Nat} {last : CatalogEntry α} (distinct : DistinctNames shards visible)
    (within : ∀ name, options.admits name = true → visible name = true)
    (page : ((catalogOrder shards options).take count).getLast? = some last) :
    options.admits last.name = true ∧
      catalogOrder shards { options with cursor := some last.name } =
        (catalogOrder shards options).drop count := by
  obtain ⟨front, taken⟩ := List.getLast?_eq_some_iff.mp page
  have split_ : catalogOrder shards options = front ++ last :: (catalogOrder shards options).drop count := by
    have whole := List.take_append_drop count (catalogOrder shards options)
    rw [taken, List.append_assoc, List.singleton_append] at whole
    exact whole.symm
  have admitted : options.admits last.name = true := by
    have member : last ∈ catalogOrder shards options := split_ ▸ List.mem_append_right _ (.head _)
    exact (List.mem_filter.mp (catalogOrder_perm.mem_iff.mp member)).2
  have beyond (name : String) : CatalogStorage.admitted { options with cursor := some last.name } shards name =
      (CatalogStorage.admitted options shards name).filter fun other => decide (options.before last other) := by
    unfold CatalogStorage.admitted
    rw [List.filter_map]
    refine congrArg _ ?_
    have kept : (shards name).records.filter (fun record =>
        ({ options with cursor := some last.name } : CatalogListOptions).admits record.1) =
        ((shards name).records.filter fun record => options.admits record.1).filter fun record =>
          decide (options.before last ⟨record.1, record.2, name⟩) := by
      rw [List.filter_filter]
      refine List.filter_congr fun record _ => ?_
      rw [Bool.eq_iff_iff, Bool.and_eq_true, decide_eq_true_eq, and_comm]
      exact @admits_cursor α options last ⟨record.1, record.2, name⟩ admitted
    simp only [kept]
    split
    · rw [List.filter_reverse]
      rfl
    · rfl
  have strict := split_ ▸ catalogOrder_strict distinct within
  refine ⟨admitted, ?_⟩
  calc catalogOrder shards { options with cursor := some last.name }
    _ = ((allRunCatalogShardNames.flatMap (CatalogStorage.admitted options shards)).filter fun other =>
          decide (options.before last other)).insertionSort options.ordered := by
      unfold catalogOrder
      rw [List.filter_flatMap, funext beyond]
      rfl
    _ = (catalogOrder shards options).filter fun other => decide (options.before last other) :=
      (SortedPages.filter_insertionSort _).symm
    _ = (catalogOrder shards options).drop count := by
      refine (congrArg (List.filter _) split_).trans (SortedPages.filter_beyond strict (fun _ => ?_) (fun _ => ?_)
        fun _ => decide_eq_true_iff)
      · exact CatalogListOptions.before_irrefl
      · exact CatalogListOptions.before_asymm

/-- Following the cursors visits the whole order, one entry at least a page. -/
theorem followRuns_eq {fuel : Nat} (distinct : DistinctNames shards visible)
    (within : ∀ name, options.admits name = true → visible name = true)
    (enough : (catalogOrder shards options).length < fuel) :
    followRuns shards fuel options = some (catalogOrder shards options) := by
  induction fuel generalizing options with
  | zero => omega
  | succ fuel ih =>
    have positive := (pageLimit_bounds options.limit (show 1 ≤ 1000 by decide)).1
    rw [followRuns, listRuns_eq]
    generalize pageLimit 1000 options.limit = limit at positive
    simp only
    by_cases complete : (catalogOrder shards options).length ≤ limit
    · rw [if_pos (decide_eq_true complete), List.take_of_length_le complete]
    · rw [if_neg (by simpa using complete), if_neg (by simpa using complete)]
      have nonempty : (catalogOrder shards options).take limit ≠ [] := by
        intro none_
        have := congrArg List.length none_
        rw [List.length_take, List.length_nil] at this
        omega
      have page := List.getLast?_eq_some_getLast nonempty
      obtain ⟨admitted, rest⟩ := catalogOrder_cursor distinct within page
      have later : ∀ name, ({ options with cursor := some (((catalogOrder shards options).take limit).getLast
          nonempty).name } : CatalogListOptions).admits name = true → visible name = true := fun name beyond =>
        within name (@admits_cursor α options _ ⟨name, (((catalogOrder shards options).take limit).getLast
          nonempty).value, ""⟩ admitted |>.mp beyond).1
      rw [page, Option.map_some, ih later (by rw [rest, List.length_drop]; omega), rest, Option.map_some,
        List.take_append_drop]

end Listing

end CelldWorld
