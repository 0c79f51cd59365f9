import CelldWorld.RunCatalogStore
import CelldWorld.ExpiryReports
import CelldWorld.RunStatus

namespace CelldWorld

/-- The deadline of the catalog publication that a client of this transaction may make:
the accepted event returned its run and the lease for it. -/
def CellOp.publicationLease (W : WorldContract) (runId : String) (now : Nat) (op : CellOp)
    (store : RunStore) : Option Nat :=
  match op with
  | .applyEvent request =>
    match WorkflowRunDO.applyEvent W runId now request store with
    | .ok (.ok success, _) => if success.run.isSome then success.indexPublicationExpiresAt else none
    | _ => none
  | _ => none

/-- One run's cell and the catalog shard of the run, on one clock. -/
structure CatalogSystem where
  now : Nat := 0
  cell : RunStore := {}
  shard : RunCatalogStore := {}
  /-- The deadlines of all publications that the cell has granted so far. -/
  leases : List Nat := []
  /-- Has an `expireRun` of the run returned? -/
  expiryReturned : Bool := false

/-- One step of the system. `admits` restricts the states in which `expireRun` arrives. -/
inductive CatalogStep (W : WorldContract) (runId : String) (admits : CatalogSystem → Prop)
    (system : CatalogSystem) : CatalogSystem → Prop
  | tick {later : Nat} (forward : system.now ≤ later) :
      CatalogStep W runId admits system { system with now := later }
  | cell (op : CellOp) : CatalogStep W runId admits system { system with
      cell := op.run W runId system.now system.cell
      leases := (op.publicationLease W runId system.now system.cell).toList ++ system.leases }
  | upsertRun {keys : List String} {serializedMetadata : String} {lease : Nat} {stored : Bool}
      {shard : RunCatalogStore} (granted : lease ∈ system.leases)
      (call : RunCatalogDO.upsertRun runId keys serializedMetadata lease system.now system.shard =
        .ok (stored, shard)) :
      CatalogStep W runId admits system { system with shard }
  | expireRun {expiredAt deleted : Nat} {shard : RunCatalogStore} (admitted : admits system)
      (expired : (system.cell.tombstoneFrom system.now).isSome)
      (call : RunCatalogDO.expireRun runId expiredAt system.now system.shard = .ok (deleted, shard)) :
      CatalogStep W runId admits system { system with shard, expiryReturned := true }
  | upsertOther {other : String} {keys : List String} {serializedMetadata : String} {lease : Nat} {stored : Bool}
      {shard : RunCatalogStore} (different : other ≠ runId)
      (call : RunCatalogDO.upsertRun other keys serializedMetadata lease system.now system.shard =
        .ok (stored, shard)) :
      CatalogStep W runId admits system { system with shard }
  | expireOther {other : String} {expiredAt deleted : Nat} {shard : RunCatalogStore} (different : other ≠ runId)
      (call : RunCatalogDO.expireRun other expiredAt system.now system.shard = .ok (deleted, shard)) :
      CatalogStep W runId admits system { system with shard }
  | deleteStale {other key expected : String} {deleted : Bool} {shard : RunCatalogStore}
      (call : RunCatalogDO.deleteStaleGlobalRun other key expected system.shard = .ok (deleted, shard)) :
      CatalogStep W runId admits system { system with shard }
  | alarm : CatalogStep W runId admits system { system with
      shard := RunCatalogDO.compactExpiryFences system.now system.shard }

/-- The states that the system reaches. -/
inductive CatalogReach (W : WorldContract) (runId : String) (admits : CatalogSystem → Prop) : CatalogSystem → Prop
  | start : CatalogReach W runId admits {}
  | next {before after : CatalogSystem} (reach : CatalogReach W runId admits before)
      (step : CatalogStep W runId admits before after) : CatalogReach W runId admits after

/-- A publication under this lease would pass the deadline check at time `now`. -/
def leaseAlive (now lease : Nat) : Prop :=
  now < lease ∧ lease ≤ MAX_SAFE_INTEGER

/-- An `expireRun` that arrives now leaves every granted publication refused: it finds the
keys of the run or its marker, or no lease is alive any more. -/
def CatalogSystem.Fences (runId : String) (system : CatalogSystem) : Prop :=
  (system.shard.catalogKeys[runId]?).isSome ∨ (system.shard.expired[runId]?).isSome ∨
    ∀ lease ∈ system.leases, ¬ leaseAlive system.now lease

/-- Every deadline entry repeats its key. -/
def RunCatalogStore.GcKeyed (store : RunCatalogStore) : Prop :=
  ∀ key (item : CatalogExpiryGc), store.expiryGc[key]? = some item → key = (item.compactAt, item.runId)

namespace RunCatalogDO
variable {runId other : String} {keys : List String} {serializedMetadata : String} {lease now : Nat}
variable {store after : RunCatalogStore} {stored : Bool}

/-- What `upsertRun` changes, if anything: the entries and the key record of its run. -/
theorem upsertRun_ok (call : upsertRun runId keys serializedMetadata lease now store = .ok (stored, after)) :
    (after = store ∧ (stored = true → leaseAlive now lease ∧ store.expired[runId]? = none)) ∨
      ∃ canonicalKeys entries, after = { store with
          entries, catalogKeys := store.catalogKeys.insert runId canonicalKeys } ∧
        leaseAlive now lease ∧ store.expired[runId]? = none := by
  unfold upsertRun at call
  obtain ⟨canonicalKeys, -, call⟩ := bind_ok.mp call
  split at call
  · cases call
    exact .inl ⟨rfl, nofun⟩
  rename_i unfenced
  have unfenced : store.expired[runId]? = none := by simpa using unfenced
  split at call
  · cases call
    exact .inl ⟨rfl, nofun⟩
  rename_i due
  have alive : leaseAlive now lease := by
    unfold leaseAlive
    omega
  split at call
  · cases call
    exact .inl ⟨rfl, fun _ => ⟨alive, unfenced⟩⟩
  · cases call
    exact .inr ⟨canonicalKeys, _, rfl, alive, unfenced⟩

theorem expireRun_ok {expiredAt deleted : Nat}
    (call : expireRun runId expiredAt now store = .ok (deleted, after)) :
    (after = store ∧ store.catalogKeys[runId]? = none) ∨
      ∃ compactAt, (store.expired[runId]?.map (·.compactAt)).getD (now + CATALOG_FENCE_GRACE_MS) = compactAt ∧
        after.expired = store.expired.insert runId ⟨expiredAt, compactAt⟩ ∧
        after.expiryGc = store.expiryGc.insert (compactAt, runId) ⟨runId, compactAt⟩ ∧
        after.catalogKeys = store.catalogKeys.erase runId := by
  unfold expireRun at call
  split at call
  · rename_i absent
    cases call
    exact .inl ⟨rfl, absent⟩
  · obtain ⟨canonicalKeys, -, call⟩ := bind_ok.mp call
    cases call
    refine .inr ⟨_, rfl, ?_⟩
    unfold armAtMost
    split <;> exact ⟨rfl, rfl, rfl⟩

theorem deleteStaleGlobalRun_ok {key expected : String} {deleted : Bool}
    (call : deleteStaleGlobalRun other key expected store = .ok (deleted, after)) :
    ∃ entries, after = { store with entries } := by
  unfold deleteStaleGlobalRun at call
  split at call
  · cases call
  split at call
  · cases call
    exact ⟨store.entries, rfl⟩
  · cases call
    exact ⟨_, rfl⟩

/-- The deadlines that an alarm finds due are stored and have passed. -/
theorem mem_scanDeadlines {ν : Type} {deadlines : DeadlineMap ν} {key : Nat × String} {item : ν}
    (member : (key, item) ∈ (scanDeadlines deadlines now).due) :
    deadlines[key]? = some item ∧ key.1 ≤ now := by
  have due := List.mem_of_mem_take member
  have listed := List.mem_of_mem_take ((List.takeWhile_prefix _).mem due)
  have passed := List.all_eq_true.mp List.all_takeWhile _ due
  exact ⟨Std.ExtTreeMap.mem_toList_iff_getElem?_eq_some.mp listed, by simpa using passed⟩

theorem foldl_erase_some {κ ν α : Type} {cmp : κ → κ → Ordering} [Std.TransCmp cmp] (key : α → κ) (items : List α)
    {map : Std.ExtTreeMap κ ν cmp} {k : κ} {value : ν}
    (stored : (items.foldl (fun map item => map.erase (key item)) map)[k]? = some value) :
    map[k]? = some value := by
  induction items generalizing map with
  | nil => exact stored
  | cons item items ih =>
    have earlier := ih stored
    rw [Std.ExtTreeMap.getElem?_erase] at earlier
    split at earlier
    · cases earlier
    · exact earlier

theorem foldl_erase_or {κ ν α : Type} {cmp : κ → κ → Ordering} [Std.TransCmp cmp] [Std.LawfulEqCmp cmp]
    (key : α → κ) (items : List α) {map : Std.ExtTreeMap κ ν cmp} {k : κ} :
    (items.foldl (fun map item => map.erase (key item)) map)[k]? = map[k]? ∨
      ((items.foldl (fun map item => map.erase (key item)) map)[k]? = none ∧ ∃ item ∈ items, key item = k) := by
  induction items generalizing map with
  | nil => exact .inl rfl
  | cons item items ih =>
    rcases @ih (map.erase (key item)) with same | ⟨gone, found, member, eq⟩
    · rw [List.foldl_cons, same, Std.ExtTreeMap.getElem?_erase]
      split
      · rename_i equal
        exact .inr ⟨rfl, item, .head _, Std.LawfulEqCmp.eq_of_compare equal⟩
      · exact .inl rfl
    · exact .inr ⟨gone, found, .tail _ member, eq⟩

/-- Compaction drops a marker only once it is due. -/
theorem compactExpiryFences_expired (keyed : store.GcKeyed) :
    (compactExpiryFences now store).expired[runId]? = store.expired[runId]? ∨
      ((compactExpiryFences now store).expired[runId]? = none ∧
        ∃ marker, store.expired[runId]? = some marker ∧ marker.compactAt ≤ now) := by
  have erased : (compactExpiryFences now store).expired[runId]? = store.expired[runId]? ∨
      ((compactExpiryFences now store).expired[runId]? = none ∧
        ∃ entry ∈ (scanDeadlines store.expiryGc now).due.filter fun entry =>
            store.expired[entry.2.runId]?.any fun marker => marker.compactAt = entry.2.compactAt,
          entry.2.runId = runId) :=
    foldl_erase_or (fun entry : (Nat × String) × CatalogExpiryGc => entry.2.runId) _
  rcases erased with same | ⟨gone, ⟨key, item⟩, member, rfl⟩
  · exact .inl same
  · obtain ⟨due, marked⟩ := List.mem_filter.mp member
    obtain ⟨marker, stored, equal⟩ := (Option.any_eq_true _ _).mp marked
    obtain ⟨listed, passed⟩ := mem_scanDeadlines due
    have equal : marker.compactAt = item.compactAt := by simpa using equal
    have own := keyed key item listed
    rw [own] at passed
    exact .inr ⟨gone, marker, stored, equal ▸ passed⟩

theorem compactExpiryFences_keyed (keyed : store.GcKeyed) : (compactExpiryFences now store).GcKeyed :=
  fun key item stored =>
    keyed key item (foldl_erase_some (fun entry : (Nat × String) × CatalogExpiryGc => entry.1) _ stored)

theorem expireRun_keyed {expiredAt deleted : Nat} (keyed : store.GcKeyed)
    (call : expireRun runId expiredAt now store = .ok (deleted, after)) : after.GcKeyed := by
  rcases expireRun_ok call with ⟨rfl, -⟩ | ⟨compactAt, -, -, gc, -⟩
  · exact keyed
  · intro key item stored
    rw [gc, Std.ExtTreeMap.getElem?_insert] at stored
    split at stored
    · rename_i same
      obtain rfl := Option.some.inj stored
      exact (Std.LawfulEqCmp.eq_of_compare same).symm
    · exact keyed key item stored

end RunCatalogDO

variable {W : WorldContract} {runId : String} {admits : CatalogSystem → Prop} {system after : CatalogSystem}

/-- A granted lease runs for the publication lifetime, and an expired run grants none. -/
theorem CellOp.publicationLease_spec {now lease : Nat} {op : CellOp} {store : RunStore}
    (granted : op.publicationLease W runId now store = some lease) :
    lease = now + MAX_RUN_INDEX_PUBLICATION_LIFETIME_MS ∧ store.tombstoneFrom now = none := by
  cases op with
  | applyEvent request =>
    simp only [publicationLease] at granted
    split at granted
    · rename_i success after call
      rcases WorkflowRunDO.applyEvent_ok call with ⟨⟨refusal, refused⟩, -⟩ |
        ⟨applied, txn, -, unexpired, -, commit⟩
      · cases refused
      unfold WorkflowRunDO.commitOutcome at commit
      obtain ⟨⟨scheduled, retained⟩, -, commit⟩ := bind_ok.mp commit
      obtain ⟨finalized, -⟩ := Prod.mk.inj (Except.ok.inj commit)
      obtain ⟨page, maxEvents, replayRun, rfl⟩ := finalizeEventPage_page finalized
      refine ⟨?_, unexpired⟩
      simp only [WorkflowRunDO.setPublicationDeadline] at granted
      split at granted
      · exact (Option.some.inj granted).symm
      · cases granted
    · cases granted
  | _ => cases granted

/-- What the leases, the marker and the key record of the run say of one another. -/
structure CatalogSystem.Sound (runId : String) (system : CatalogSystem) : Prop where
  keyed : system.shard.GcKeyed
  granted : ∀ lease ∈ system.leases, lease ≤ system.now + MAX_RUN_INDEX_PUBLICATION_LIFETIME_MS
  marked : ∀ marker, system.shard.expired[runId]? = some marker → system.expiryReturned = true
  fenced : system.expiryReturned = true → (system.cell.tombstoneFrom system.now).isSome ∧
    system.shard.catalogKeys[runId]? = none ∧
    ((∃ marker, system.shard.expired[runId]? = some marker ∧ ∀ lease ∈ system.leases, lease ≤ marker.compactAt) ∨
      ∀ lease ∈ system.leases, ¬ leaseAlive system.now lease)

namespace CatalogSystem.Sound

theorem start : CatalogSystem.Sound runId {} where
  keyed key item stored := by simp at stored
  granted lease member := by cases member
  marked marker stored := by simp at stored
  fenced := nofun

theorem closed {lease : Nat} (sound : system.Sound runId) (returned : system.expiryReturned = true)
    (granted : lease ∈ system.leases) :
    ¬ (leaseAlive system.now lease ∧ system.shard.expired[runId]? = none) := by
  rintro ⟨alive, unmarked⟩
  obtain ⟨-, -, ⟨marker, marked, -⟩ | dead⟩ := sound.fenced returned
  · cases marked.symm.trans unmarked
  · exact dead lease granted alive

/-- A publication of the run is refused once its expiry has returned. -/
theorem refuses {keys : List String} {serializedMetadata : String} {lease : Nat} {stored : Bool}
    {shard : RunCatalogStore} (sound : system.Sound runId) (returned : system.expiryReturned = true)
    (granted : lease ∈ system.leases)
    (call : RunCatalogDO.upsertRun runId keys serializedMetadata lease system.now system.shard =
      .ok (stored, shard)) :
    stored = false ∧ shard = system.shard := by
  have closed := sound.closed returned granted
  rcases RunCatalogDO.upsertRun_ok call with ⟨same, alive⟩ | ⟨_, _, -, alive⟩
  · refine ⟨?_, same⟩
    cases stored with
    | true => exact absurd (alive rfl) closed
    | false => rfl
  · exact absurd alive closed

/-- A write of the shard that leaves the marker and the keys of the run alone. -/
theorem frame {shard : RunCatalogStore} (sound : system.Sound runId) (keyed : shard.GcKeyed)
    (marker : shard.expired[runId]? = system.shard.expired[runId]?)
    (keys : shard.catalogKeys[runId]? = system.shard.catalogKeys[runId]?) :
    CatalogSystem.Sound runId { system with shard } where
  keyed := keyed
  granted := sound.granted
  marked fence stored := sound.marked fence (marker.symm.trans stored)
  fenced returned := by
    obtain ⟨expired, unstored, fence⟩ := sound.fenced returned
    refine ⟨expired, keys.trans unstored, ?_⟩
    simp only [marker]
    exact fence

theorem tick {later : Nat} (sound : system.Sound runId) (forward : system.now ≤ later) :
    CatalogSystem.Sound runId { system with now := later } where
  keyed := sound.keyed
  granted lease member := by
    have bound := sound.granted lease member
    simp only
    omega
  marked := sound.marked
  fenced returned := by
    obtain ⟨expired, unstored, fence⟩ := sound.fenced returned
    have unchanged : RecordStep later .rearmCleanup system.cell system.cell := .refl
    refine ⟨unchanged.expired forward expired, unstored, fence.imp_right fun dead lease member alive => ?_⟩
    exact dead lease member ⟨Nat.lt_of_le_of_lt forward alive.1, alive.2⟩

/-- The cell grants leases of at most the publication lifetime, and none once it is expired. -/
theorem cell {op : CellOp} (sound : system.Sound runId) : CatalogSystem.Sound runId { system with
    cell := op.run W runId system.now system.cell
    leases := (op.publicationLease W runId system.now system.cell).toList ++ system.leases } where
  keyed := sound.keyed
  granted lease member := by
    rcases List.mem_append.mp member with fresh | earlier
    · exact Nat.le_of_eq (CellOp.publicationLease_spec (Option.mem_toList.mp fresh)).1
    · exact sound.granted lease earlier
  marked := sound.marked
  fenced returned := by
    obtain ⟨expired, unstored, fence⟩ := sound.fenced returned
    have ungranted : op.publicationLease W runId system.now system.cell = none := by
      cases granted : op.publicationLease W runId system.now system.cell with
      | none => rfl
      | some lease =>
        rw [(CellOp.publicationLease_spec granted).2] at expired
        cases expired
    refine ⟨(op.recordStep W runId system.now system.cell).expired (Nat.le_refl _) expired, unstored, ?_⟩
    simp only [ungranted]
    exact fence

/-- The expiry of the run fences it, or finds a fence that already holds. -/
theorem expireRun {expiredAt deleted : Nat} {shard : RunCatalogStore} (sound : system.Sound runId)
    (fences : system.Fences runId) (expired : (system.cell.tombstoneFrom system.now).isSome)
    (call : RunCatalogDO.expireRun runId expiredAt system.now system.shard = .ok (deleted, shard)) :
    CatalogSystem.Sound runId { system with shard, expiryReturned := true } where
  keyed := RunCatalogDO.expireRun_keyed sound.keyed call
  granted := sound.granted
  marked _ _ := rfl
  fenced _ := by
    refine ⟨expired, ?_⟩
    rcases RunCatalogDO.expireRun_ok call with ⟨rfl, unstored⟩ | ⟨compactAt, kept, marker, -, keys⟩
    · refine ⟨unstored, ?_⟩
      rcases fences with published | marked | dead
      · rw [unstored] at published
        cases published
      · obtain ⟨marker, marked⟩ := Option.isSome_iff_exists.mp marked
        exact (sound.fenced (sound.marked marker marked)).2.2
      · exact .inr dead
    · simp only [marker, keys, Std.ExtTreeMap.getElem?_insert_self, Std.ExtTreeMap.getElem?_erase_self]
      refine ⟨trivial, ?_⟩
      cases marked : system.shard.expired[runId]? with
      | none =>
        -- the first fence of the run, set longer than any lease that is granted yet
        refine .inl ⟨_, rfl, fun lease member => ?_⟩
        rw [marked] at kept
        exact kept ▸ sound.granted lease member
      | some fence =>
        rw [marked] at kept
        obtain ⟨-, -, ⟨earlier, same, longer⟩ | dead⟩ := sound.fenced (sound.marked fence marked)
        · obtain rfl := Option.some.inj (marked.symm.trans same)
          exact .inl ⟨_, rfl, fun lease member => kept ▸ longer lease member⟩
        · exact .inr dead

theorem alarm (sound : system.Sound runId) : CatalogSystem.Sound runId { system with
    shard := RunCatalogDO.compactExpiryFences system.now system.shard } := by
  have keyed := @RunCatalogDO.compactExpiryFences_keyed system.now system.shard sound.keyed
  rcases RunCatalogDO.compactExpiryFences_expired sound.keyed with same | ⟨dropped, marker, marked, due⟩
  · exact sound.frame keyed same rfl
  · refine ⟨keyed, sound.granted, fun fence stored => ?_, fun returned => ?_⟩
    · cases dropped.symm.trans stored
    obtain ⟨expired, unstored, fence⟩ := sound.fenced returned
    refine ⟨expired, unstored, .inr fun lease member alive => ?_⟩
    rcases fence with ⟨other, same, longer⟩ | dead
    · obtain rfl := Option.some.inj (marked.symm.trans same)
      have passed : system.now < marker.compactAt := Nat.lt_of_lt_of_le alive.1 (longer lease member)
      exact Nat.not_le_of_lt passed due
    · exact dead lease member alive

theorem step (sound : system.Sound runId)
    (step : CatalogStep W runId (CatalogSystem.Fences runId) system after) : after.Sound runId := by
  cases step with
  | tick forward => exact sound.tick forward
  | cell op => exact sound.cell
  | @upsertRun _ _ _ stored shard granted call =>
    rcases RunCatalogDO.upsertRun_ok call with ⟨rfl, -⟩ | ⟨_, _, rfl, alive⟩
    · exact sound.frame sound.keyed rfl rfl
    · exact ⟨sound.keyed, sound.granted, sound.marked,
        fun returned => absurd alive (sound.closed returned granted)⟩
  | expireRun admitted expired call => exact sound.expireRun admitted expired call
  | @upsertOther other _ _ _ _ _ different call =>
    rcases RunCatalogDO.upsertRun_ok call with ⟨rfl, -⟩ | ⟨_, _, rfl, -⟩
    · exact sound.frame sound.keyed rfl rfl
    · refine sound.frame sound.keyed rfl ?_
      rw [Std.ExtTreeMap.getElem?_insert, if_neg (by simpa using different)]
  | @expireOther other _ _ _ different call =>
    have keyed := RunCatalogDO.expireRun_keyed sound.keyed call
    rcases RunCatalogDO.expireRun_ok call with ⟨rfl, -⟩ | ⟨_, -, marker, -, keys⟩
    · exact sound.frame keyed rfl rfl
    · refine sound.frame keyed ?_ ?_
      · rw [marker, Std.ExtTreeMap.getElem?_insert, if_neg (by simpa using different)]
      · rw [keys, Std.ExtTreeMap.getElem?_erase, if_neg (by simpa using different)]
  | deleteStale call =>
    obtain ⟨entries, rfl⟩ := RunCatalogDO.deleteStaleGlobalRun_ok call
    exact sound.frame sound.keyed rfl rfl
  | alarm => exact sound.alarm

end CatalogSystem.Sound

theorem CatalogReach.sound (reach : CatalogReach W runId (CatalogSystem.Fences runId) system) :
    system.Sound runId := by
  induction reach with
  | start => exact .start
  | next _ step ih => exact ih.step step

/-- No lease runs longer than the publication lifetime, whatever the shard does. -/
theorem CatalogReach.granted (reach : CatalogReach W runId admits system) :
    ∀ lease ∈ system.leases, lease ≤ system.now + MAX_RUN_INDEX_PUBLICATION_LIFETIME_MS := by
  induction reach with
  | start => exact fun lease member => by cases member
  | next _ step ih =>
    intro lease member
    cases step with
    | tick forward =>
      have bound := ih lease member
      simp only
      omega
    | cell op =>
      rcases List.mem_append.mp member with fresh | earlier
      · exact Nat.le_of_eq (CellOp.publicationLease_spec (Option.mem_toList.mp fresh)).1
      · exact ih lease earlier
    | _ => exact ih lease member

namespace RunCatalogDO
variable {runId : String} {now : Nat} {store : RunCatalogStore}

/-- A run whose expiry left no marker is published again under any lease that is alive. -/
theorem upsertRun_unfenced {keys : List String} {canonicalKeys : String × String} {serializedMetadata : String}
    {lease : Nat} (canonical : canonicalCatalogKeys runId keys = .ok canonicalKeys)
    (unmarked : store.expired[runId]? = none) (unstored : store.catalogKeys[runId]? = none)
    (alive : leaseAlive now lease) (bound : lease ≤ now + MAX_RUN_INDEX_PUBLICATION_LIFETIME_MS) :
    ∃ after, upsertRun runId keys serializedMetadata lease now store = .ok (true, after) ∧
      after.catalogKeys[runId]? = some canonicalKeys := by
  have timely : ¬ (MAX_SAFE_INTEGER < lease ∨ lease ≤ now ∨
      now + MAX_RUN_INDEX_PUBLICATION_LIFETIME_MS < lease) := by
    obtain ⟨early, exact⟩ := alive
    omega
  unfold upsertRun
  simp only [canonical, bind, Except.bind, unmarked, Option.isSome_none, Bool.false_eq_true, if_false,
    if_neg timely, unstored, reduceCtorEq, and_false]
  exact ⟨_, rfl, Std.ExtTreeMap.getElem?_insert_self⟩

theorem expireRun_published {storedKeys canonicalKeys : String × String} {expiredAt : Nat}
    (published : store.catalogKeys[runId]? = some storedKeys)
    (canonical : canonicalCatalogKeys runId [storedKeys.1, storedKeys.2] = .ok canonicalKeys) :
    ∃ deleted after, expireRun runId expiredAt now store = .ok (deleted, after) := by
  unfold expireRun
  rw [published]
  simp only [canonical, bind, Except.bind]
  exact ⟨_, _, rfl⟩

end RunCatalogDO

/-- Once the expiry of a run has returned, no granted publication is stored for it, as long
as each expiry of the run finds its keys or its marker, or no lease alive. Where an expiry
finds none of these, it writes nothing, and a granted publication is stored after it. -/
theorem catalogExpiry_final (W : WorldContract) (runId : String) :
    (∀ system, CatalogReach W runId (CatalogSystem.Fences runId) system → system.expiryReturned = true →
      system.shard.catalogKeys[runId]? = none ∧
        ∀ keys serializedMetadata, ∀ lease ∈ system.leases, ∀ stored shard,
          RunCatalogDO.upsertRun runId keys serializedMetadata lease system.now system.shard =
            .ok (stored, shard) →
          stored = false ∧ shard = system.shard) ∧
    ∀ admits system, CatalogReach W runId admits system → ¬ system.Fences runId →
      (∀ expiredAt, RunCatalogDO.expireRun runId expiredAt system.now system.shard = .ok (0, system.shard)) ∧
        ∃ lease ∈ system.leases, ∀ keys canonicalKeys serializedMetadata,
          RunCatalogDO.canonicalCatalogKeys runId keys = .ok canonicalKeys → ∃ shard,
            RunCatalogDO.upsertRun runId keys serializedMetadata lease system.now
              system.shard = .ok (true, shard) ∧
              shard.catalogKeys[runId]? = some canonicalKeys := by
  refine ⟨fun system reach returned => ?_, fun admits system reach unfenced => ?_⟩
  · have sound := reach.sound
    exact ⟨(sound.fenced returned).2.1,
      fun keys serializedMetadata lease granted stored shard call => sound.refuses returned granted call⟩
  · unfold CatalogSystem.Fences at unfenced
    simp only [not_or, Option.not_isSome_iff_eq_none, not_forall, not_not] at unfenced
    obtain ⟨unstored, unmarked, lease, member, alive⟩ := unfenced
    refine ⟨fun expiredAt => ?_, lease, member, fun keys canonicalKeys serializedMetadata canonical => ?_⟩
    · unfold RunCatalogDO.expireRun
      rw [unstored]
    · exact RunCatalogDO.upsertRun_unfenced canonical unmarked unstored alive (reach.granted lease member)

/-- A run that is started, and completed with a retention of five milliseconds. -/
def CatalogSystem.retained (shard : RunCatalogStore) : CatalogSystem where
  now := 9
  cell := ExpiringCell.retained.store
  shard
  leases := [2 + MAX_RUN_INDEX_PUBLICATION_LIFETIME_MS, 1 + MAX_RUN_INDEX_PUBLICATION_LIFETIME_MS]

def CatalogSystem.started : CatalogSystem where
  now := 1
  cell := CellOp.run .unary "run" 1 (.resilientStart "run" "deployment" "workflow" (.string "input")) {}
  leases := [1 + MAX_RUN_INDEX_PUBLICATION_LIFETIME_MS]

theorem CatalogSystem.started_reach {admits : CatalogSystem → Prop} :
    CatalogReach .unary "run" admits CatalogSystem.started :=
  .next (.next .start (.tick (Nat.zero_le 1)))
    (.cell (.resilientStart "run" "deployment" "workflow" (.string "input")))

theorem CatalogSystem.retained_reach {admits : CatalogSystem → Prop} {shard : RunCatalogStore}
    (reach : CatalogReach .unary "run" admits { CatalogSystem.started with shard }) :
    CatalogReach .unary "run" admits (CatalogSystem.retained shard) :=
  .next (.next (.next reach (.tick (Nat.le_succ 1))) (.cell (.completeRetained "run")))
    (.tick (show 2 ≤ 9 by decide))

theorem CatalogSystem.retained_expired : (ExpiringCell.retained.store.tombstoneFrom 9).isSome := by
  decide

theorem canonicalCatalogKeys_run : RunCatalogDO.canonicalCatalogKeys "run"
    ["run:workflow:0000000000001:run", "runall:0000000000001:run"] =
      .ok ("run:workflow:0000000000001:run", "runall:0000000000001:run") := by
  decide +kernel

theorem catalogExpiry_final_published : ∃ system,
    CatalogReach .unary "run" (CatalogSystem.Fences "run") system ∧ system.expiryReturned = true ∧
      system.leases ≠ [] ∧ system.shard.catalogKeys["run"]? = none := by
  obtain ⟨shard, call, published⟩ := @RunCatalogDO.upsertRun_unfenced "run" 1 {} _ _ "{}"
    (1 + MAX_RUN_INDEX_PUBLICATION_LIFETIME_MS) canonicalCatalogKeys_run
    Std.ExtTreeMap.getElem?_empty Std.ExtTreeMap.getElem?_empty (by unfold leaseAlive; decide) (Nat.le_refl _)
  have retained := @CatalogSystem.retained_reach (CatalogSystem.Fences "run") shard
    (.next CatalogSystem.started_reach (.upsertRun (.head _) call))
  obtain ⟨deleted, after, expiry⟩ :=
    @RunCatalogDO.expireRun_published "run" 9 shard _ _ 7 published canonicalCatalogKeys_run
  have fenced : (CatalogSystem.retained shard).Fences "run" :=
    .inl (by rw [CatalogSystem.retained, published]; rfl)
  have expired := CatalogReach.next retained (.expireRun fenced CatalogSystem.retained_expired expiry)
  exact ⟨_, expired, rfl, nofun, ((catalogExpiry_final .unary "run").1 _ expired rfl).1⟩

/-- The expiry of a run whose publication is still on its way leaves no marker, and the
publication is stored after it. -/
theorem catalogExpiry_resurrected : ∃ system, CatalogReach .unary "run" (fun _ => True) system ∧
    system.expiryReturned = true ∧ ∃ lease ∈ system.leases, ∃ shard,
      RunCatalogDO.upsertRun "run" ["run:workflow:0000000000001:run", "runall:0000000000001:run"] "{}" lease
        system.now system.shard = .ok (true, shard) ∧
      shard.catalogKeys["run"]? = some ("run:workflow:0000000000001:run", "runall:0000000000001:run") := by
  have retained := CatalogSystem.retained_reach (@CatalogSystem.started_reach fun _ => True)
  have expiry : RunCatalogDO.expireRun "run" 7 9 {} = .ok (0, {}) := rfl
  refine ⟨_, .next retained (.expireRun trivial CatalogSystem.retained_expired expiry), rfl,
    1 + MAX_RUN_INDEX_PUBLICATION_LIFETIME_MS, .tail _ (.head _), ?_⟩
  exact RunCatalogDO.upsertRun_unfenced canonicalCatalogKeys_run Std.ExtTreeMap.getElem?_empty
    Std.ExtTreeMap.getElem?_empty (by unfold leaseAlive; decide) (by decide)

end CelldWorld
