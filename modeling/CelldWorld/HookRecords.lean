import CelldWorld.Fleet

namespace CelldWorld

/-- Every record stored afterwards was stored before, or is one that may be written. -/
def IndexStore.Writes (may : String → Hook → Prop) (before after : IndexStore) : Prop :=
  ∀ (name : String) hook, after.records[name]? = some hook → before.records[name]? = some hook ∨ may name hook

namespace IndexStore.Writes
variable {may : String → Hook → Prop} {first middle last store : IndexStore}

theorem of_eq (same : last.records = first.records) : first.Writes may last :=
  fun _ _ stored => .inl (same ▸ stored)

theorem trans (head : first.Writes may middle) (tail : middle.Writes may last) : first.Writes may last := by
  intro name hook stored
  rcases tail name hook stored with earlier | written
  · exact head name hook earlier
  · exact .inr written

theorem putRecord {name : String} {hook : Hook} (allowed : may name hook) :
    store.Writes may (store.putRecord name hook) := by
  intro other found stored
  simp only [IndexStore.putRecord, Std.ExtTreeMap.getElem?_insert] at stored
  split at stored
  · rename_i same
    obtain rfl : name = other := Std.LawfulEqCmp.eq_of_compare same
    exact .inr (Option.some.inj stored ▸ allowed)
  · exact .inl stored

theorem dropRecord {name : String} : store.Writes may (store.dropRecord name) := by
  intro other found stored
  simp only [IndexStore.dropRecord, Std.ExtTreeMap.getElem?_erase] at stored
  split at stored
  · cases stored
  · exact .inl stored

/-- A transaction that handles one entry after another. -/
theorem foldl {σ α : Type} (index : σ → IndexStore) {step : σ → α → σ} {entries : List α} {state : σ}
    (steps : ∀ current, ∀ entry ∈ entries, (index current).Writes may (index (step current entry))) :
    (index state).Writes may (index (entries.foldl step state)) := by
  induction entries generalizing state with
  | nil => exact .of_eq rfl
  | cons entry entries ih =>
    have head := steps state entry (.head _)
    exact head.trans (ih fun current other member => steps current other (.tail _ member))

end IndexStore.Writes

namespace IndexStore
variable {may : String → Hook → Prop} {store : IndexStore} {name : String} {owner : HookTokenOwner} {now : Nat}

@[simp] theorem armAtMost_records {time : Nat} : (store.armAtMost time).records = store.records := by
  unfold armAtMost
  split <;> rfl

@[simp] theorem putClaim_records {claimId : String} :
    (store.putClaim name owner claimId now).records = store.records := by
  simp [putClaim]

@[simp] theorem dropClaim_records {claim : HookClaim} :
    (store.dropClaim name claim).records = store.records := rfl

@[simp] theorem renewClaim_records {claim : HookClaim} :
    (store.renewClaim name claim now).records = store.records := by
  simp [renewClaim]

@[simp] theorem releaseClaim_records {claimId : String} :
    (store.releaseClaim name owner claimId).records = store.records := by
  unfold releaseClaim
  split
  · split <;> rfl
  · rfl

theorem publishRecord_writes {label : String} {hook : Hook} {claimId : Option String} {after : IndexStore}
    (allowed : may name hook)
    (published : store.publishRecord label name hook owner claimId now = .ok after) :
    store.Writes may after := by
  unfold publishRecord at published
  split at published
  · cases published
  split at published
  · split at published
    · cases published
    split at published
    · cases published
    · cases published
      exact (Writes.putRecord allowed).trans (.of_eq rfl)
  · split at published
    · cases published
    · cases published
      exact .putRecord allowed

theorem publishCommittedClaim_writes {observed : HookClaim} {hook : Hook} (allowed : may name hook) :
    store.Writes may (store.publishCommittedClaim name observed hook).2 := by
  unfold publishCommittedClaim
  split
  · exact .of_eq rfl
  · split
    · exact (Writes.putRecord allowed).trans (.of_eq rfl)
    · exact .of_eq rfl
  · exact .of_eq rfl

/-- The record that the transaction answers is the published hook, or was stored before. -/
theorem publishCommittedClaim_answer {observed : HookClaim} {hook raw : Hook}
    (answered : (store.publishCommittedClaim name observed hook).1.1 = some raw) :
    raw = hook ∨ store.records[name]? = some raw := by
  unfold publishCommittedClaim at answered
  split at answered
  · rename_i stored
    exact .inr (stored.trans answered)
  · split at answered
    · exact .inl (Option.some.inj answered).symm
    · cases answered
  · cases answered

theorem withdraw_writes : store.Writes may (store.withdraw name owner) := by
  unfold withdraw
  split
  · exact .dropRecord
  · exact .of_eq rfl

theorem dropOwnClaim_writes : store.Writes may (store.dropOwnClaim name owner) := by
  unfold dropOwnClaim
  split
  · split <;> exact .of_eq rfl
  · exact .of_eq rfl

theorem release_writes : store.Writes may (store.release name owner) :=
  withdraw_writes.trans dropOwnClaim_writes

theorem compactClaim_writes {before : IndexStore} {page : CompactedClaim}
    (allowed : ∀ hook, page.committed = some hook → may page.item.name hook) :
    store.Writes may (store.compactClaim before now page) := by
  unfold compactClaim
  split
  · split
    · split
      · split
        · rename_i hook committed
          exact (Writes.putRecord (allowed hook committed)).trans (.of_eq rfl)
        · exact .of_eq rfl
      · exact .of_eq rfl
    · exact .of_eq rfl
  · exact .of_eq rfl

theorem compactClaims_writes {page : List CompactedClaim}
    (allowed : ∀ item ∈ page, ∀ hook, item.committed = some hook → may item.item.name hook) :
    store.Writes may (store.compactClaims now page) := by
  exact Writes.foldl id fun _ item member => compactClaim_writes (allowed item member)

end IndexStore

namespace HookIdDO
variable {may : String → Hook → Prop} {store : HookIdStore} {now : Nat}

theorem reserve_records {hookId proposedClaimId : String} {owner : HookTokenOwner}
    {expired : Option HookClaim} {committed : Option Hook} :
    (reserve hookId owner proposedClaimId expired committed now store).2.records = store.records := by
  unfold reserve
  split
  · rfl
  · simp
  split
  · split
    · rfl
    split <;> simp
  · split
    · rfl
    split <;> simp

theorem releaseBatch_writes {hooks : List (String × HookTokenOwner)} {deleted : Nat} {after : HookIdStore}
    (released : releaseBatch hooks store = .ok (deleted, after)) : store.Writes may after := by
  unfold releaseBatch at released
  split at released
  · cases released
  cases released
  exact IndexStore.Writes.foldl id fun _ _ _ => IndexStore.release_writes

theorem compactClaims_writes {page : List CompactedClaim} {more : Bool}
    (allowed : ∀ item ∈ page, ∀ hook, item.committed = some hook → may item.item.name hook) :
    store.Writes may (compactClaims now page more store) := by
  unfold compactClaims
  simp only
  split <;> exact (IndexStore.compactClaims_writes allowed).trans (.of_eq rfl)

end HookIdDO

namespace HookTokenDO
variable {may : String → Hook → Prop} {store : HookTokenStore} {token : String}
    {owner : HookTokenOwner} {now : Nat}

theorem freeExpiredRetention_writes {freed : HookTokenStore}
    (frees : freeExpiredRetention store token now = some freed) :
    store.toIndexStore.Writes may freed.toIndexStore := by
  unfold freeExpiredRetention at frees
  split at frees
  · split at frees
    · cases frees
    · cases frees
      exact .dropRecord
  · cases frees

theorem reserveClaim_records {proposedClaimId : String} {expired : Option HookClaim}
    {committed : Option Hook} :
    (reserveClaim store token owner proposedClaimId expired committed now).2.records = store.records := by
  unfold reserveClaim
  split
  · simp
  split
  · split
    · rfl
    split <;> simp
  · split <;> rfl

theorem reserve_writes {proposedClaimId : String} {expired : Option HookClaim} {committed : Option Hook} :
    store.toIndexStore.Writes may
      (reserve store token owner proposedClaimId expired committed now).2.toIndexStore := by
  have freed : store.toIndexStore.Writes may
      ((freeExpiredRetention store token now).getD store).toIndexStore := by
    cases frees : freeExpiredRetention store token now with
    | none => exact .of_eq rfl
    | some freed => exact freeExpiredRetention_writes frees
  unfold reserve
  split
  · exact .of_eq rfl
  simp only
  split
  · split <;> exact freed
  · exact freed.trans (.of_eq reserveClaim_records)

theorem recordTakeover_writes {indexed : Hook} {takeOver victimRunning : Bool} {proposedClaimId : String}
    {claimedFrom : HookClaimedFrom} :
    store.toIndexStore.Writes may (recordTakeover store token indexed takeOver owner proposedClaimId victimRunning
      claimedFrom now).2.toIndexStore := by
  unfold recordTakeover
  split
  · exact .of_eq rfl
  split
  · simp only
    split <;> exact .dropRecord
  · exact .of_eq IndexStore.armAtMost_records

theorem dropTakeover_records {intent : HookTakeover} :
    (dropTakeover store token intent).records = store.records := by
  unfold dropTakeover
  split
  · rfl
  simp only
  split
  · exact IndexStore.armAtMost_records
  · rfl

theorem repointRecord_writes {intent : HookTakeover} {hook : Option Hook}
    (allowed : ∀ written ∈ hook, may token written) :
    store.toIndexStore.Writes may (repointRecord store token intent hook).2.toIndexStore := by
  unfold repointRecord
  split
  · exact .of_eq rfl
  cases hook with
  | none =>
    simp only
    split <;> exact .dropRecord
  | some hook =>
    simp only
    split <;> exact .putRecord (allowed hook rfl)

theorem preemptClaim_writes {observed : HookClaim} {hook : Option Hook}
    (allowed : ∀ written ∈ hook, may token written) :
    store.toIndexStore.Writes may (preemptClaim store token observed hook).2.toIndexStore := by
  unfold preemptClaim
  split
  · split
    · cases hook with
      | none => exact .of_eq rfl
      | some hook => exact (IndexStore.Writes.putRecord (allowed hook rfl)).trans (.of_eq rfl)
    · exact .of_eq rfl
  · exact .of_eq rfl

theorem retain_records {untilMs : Nat} : (retain store token owner untilMs).records = store.records :=
  IndexStore.armAtMost_records

theorem finalize_writes {hook : Hook} {claimId : Option String} {active stored : Bool}
    {after : HookTokenStore} (allowed : may token hook)
    (finalized : finalize store token hook owner claimId active now = .ok (stored, after)) :
    store.toIndexStore.Writes may after.toIndexStore := by
  obtain ⟨index, published, same⟩ := bind_ok.mp finalized
  have written := IndexStore.publishRecord_writes allowed published
  obtain ⟨-, rfl⟩ := Prod.mk.inj (Except.ok.inj same)
  split
  · exact written.trans (.of_eq retain_records)
  · exact written

theorem releaseHook_writes {runEnded : Bool} :
    store.toIndexStore.Writes may (releaseHook store runEnded now token owner).toIndexStore := by
  have claimless : store.toIndexStore.Writes may (store.toIndexStore.dropOwnClaim token owner) :=
    IndexStore.dropOwnClaim_writes
  unfold releaseHook
  simp only
  split
  · split
    · split
      · exact claimless.trans (.of_eq retain_records)
      · exact claimless
      · exact claimless.trans .dropRecord
      · exact claimless.trans .dropRecord
    · exact claimless
  · exact claimless

theorem releaseBatch_writes {hooks : List (String × HookTokenOwner)} {runEnded : Bool} {deleted : Nat}
    {after : HookTokenStore} (released : releaseBatch store hooks runEnded now = .ok (deleted, after)) :
    store.toIndexStore.Writes may after.toIndexStore := by
  unfold releaseBatch at released
  split at released
  · cases released
  cases released
  exact IndexStore.Writes.foldl HookTokenStore.toIndexStore fun _ _ _ => releaseHook_writes

theorem compactRetained_writes {page : List ((Nat × String) × String)} :
    store.toIndexStore.Writes may (compactRetained store now page).toIndexStore := by
  refine IndexStore.Writes.foldl HookTokenStore.toIndexStore fun current item _ => ?_
  simp only
  split
  · cases frees : freeExpiredRetention current item.2 now with
    | none => exact .of_eq rfl
    | some freed => exact (freeExpiredRetention_writes frees).trans (.of_eq rfl)
  · exact .of_eq rfl

end HookTokenDO

/-- The records that a call may write. -/
def TokenCall.writes {β : Type} : TokenCall β → String → Hook → Prop
  | .repointRecord token _ hook, name, written => token = name ∧ hook = some written
  | .preemptClaim token _ hook, name, written => token = name ∧ hook = some written
  | .finalize token hook _ _ _, name, written => token = name ∧ hook = written
  | .publishCommittedClaim token _ hook, name, written => token = name ∧ hook = written
  | .compactClaims _ _ page, name, written => ∃ item ∈ page, item.item.name = name ∧ item.committed = some written
  | _, _, _ => False

def HookIdCall.writes {β : Type} : HookIdCall β → String → Hook → Prop
  | .publish hookId hook _ _, name, written => hookId = name ∧ hook = written
  | .publishCommittedClaim hookId _ hook, name, written => hookId = name ∧ hook = written
  | .compactClaims _ _ page _, name, written =>
    ∃ item ∈ page, item.item.name = name ∧ item.committed = some written
  | _, _, _ => False

namespace Fleet
variable {route : Routing} {fleet : Fleet} {β : Type}

theorem setTokens_writes {may : String → Hook → Prop} {shard : String} {store : HookTokenStore}
    (writes : (fleet.tokens shard).toIndexStore.Writes may store.toIndexStore) (other : String) :
    (fleet.tokens other).toIndexStore.Writes may ((fleet.setTokens shard store).tokens other).toIndexStore := by
  simp only [setTokens]
  split
  · rename_i same
    exact same ▸ writes
  · exact .of_eq rfl

theorem setHookIds_writes {may : String → Hook → Prop} {shard : String} {store : HookIdStore}
    (writes : (fleet.hookIds shard).Writes may store) (other : String) :
    (fleet.hookIds other).Writes may ((fleet.setHookIds shard store).hookIds other) := by
  simp only [setHookIds]
  split
  · rename_i same
    exact same ▸ writes
  · exact .of_eq rfl

/-- A call to a token shard writes no other records. -/
theorem callTokens_writes (call : TokenCall β) (shard : String) :
    (fleet.tokens shard).toIndexStore.Writes call.writes
      ((fleet.callTokens route call).2.tokens shard).toIndexStore := by
  cases call with
  | read => exact .of_eq rfl
  | reserve => exact setTokens_writes HookTokenDO.reserve_writes shard
  | recordTakeover => exact setTokens_writes HookTokenDO.recordTakeover_writes shard
  | dropTakeover => exact setTokens_writes (.of_eq HookTokenDO.dropTakeover_records) shard
  | repointRecord =>
    exact setTokens_writes (HookTokenDO.repointRecord_writes fun _ written => ⟨rfl, written⟩) shard
  | preemptClaim => exact setTokens_writes (HookTokenDO.preemptClaim_writes fun _ written => ⟨rfl, written⟩) shard
  | finalize =>
    simp only [callTokens]
    split
    · rename_i finalized
      exact setTokens_writes (HookTokenDO.finalize_writes ⟨rfl, rfl⟩ finalized) shard
    · exact .of_eq rfl
  | releaseClaim => exact setTokens_writes (.of_eq IndexStore.releaseClaim_records) shard
  | releaseBatch =>
    simp only [callTokens]
    split
    · rename_i released
      exact setTokens_writes (HookTokenDO.releaseBatch_writes released) shard
    · exact .of_eq rfl
  | publishCommittedClaim => exact setTokens_writes (IndexStore.publishCommittedClaim_writes ⟨rfl, rfl⟩) shard
  | withdraw => exact setTokens_writes IndexStore.withdraw_writes shard
  | startAlarm =>
    refine setTokens_writes ?_ shard
    exact .of_eq rfl
  | compactClaims =>
    exact setTokens_writes (IndexStore.compactClaims_writes fun item member hook committed =>
      ⟨item, member, rfl, committed⟩) shard
  | compactRetained => exact setTokens_writes HookTokenDO.compactRetained_writes shard
  | dropStaleTakeovers =>
    refine setTokens_writes ?_ shard
    exact .of_eq rfl
  | rearm =>
    refine setTokens_writes (.of_eq ?_) shard
    unfold HookTokenDO.rearm
    split <;> rfl
  | retryAlarm =>
    refine setTokens_writes ?_ shard
    exact .of_eq rfl

/-- A call to a hook-ID shard writes no other records. -/
theorem callHookIds_writes (call : HookIdCall β) (shard : String) :
    (fleet.hookIds shard).Writes call.writes ((fleet.callHookIds route call).2.hookIds shard) := by
  cases call with
  | read => exact .of_eq rfl
  | reserve => exact setHookIds_writes (.of_eq HookIdDO.reserve_records) shard
  | publish =>
    simp only [callHookIds]
    split
    · rename_i published
      exact setHookIds_writes (IndexStore.publishRecord_writes ⟨rfl, rfl⟩ published) shard
    · exact .of_eq rfl
  | releaseClaim => exact setHookIds_writes (.of_eq IndexStore.releaseClaim_records) shard
  | releaseBatch =>
    simp only [callHookIds]
    split
    · rename_i released
      exact setHookIds_writes (HookIdDO.releaseBatch_writes released) shard
    · exact .of_eq rfl
  | publishCommittedClaim => exact setHookIds_writes (IndexStore.publishCommittedClaim_writes ⟨rfl, rfl⟩) shard
  | withdraw => exact setHookIds_writes IndexStore.withdraw_writes shard
  | compactClaims =>
    exact setHookIds_writes (HookIdDO.compactClaims_writes fun item member hook committed =>
      ⟨item, member, rfl, committed⟩) shard
  | retryAlarm =>
    refine setHookIds_writes ?_ shard
    exact .of_eq rfl

end Fleet

end CelldWorld
