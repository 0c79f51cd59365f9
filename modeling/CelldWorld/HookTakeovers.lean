import CelldWorld.HookDeadlines

namespace CelldWorld

/-- One write of a token shard. A token under a takeover is not claimed. -/
inductive TokenWrite (now : Nat) (store : HookTokenStore) : HookTokenStore → Prop
  | index {index : IndexStore}
      (write : IndexWrite now (fun token => store.takeovers[token]? = none) store.toIndexStore index) :
      TokenWrite now store (HookTokenDO.withIndex store index)
  | retained (retained : KeyMap RetainedToken) (retainedDeadlines : DeadlineMap String) :
      TokenWrite now store { store with retained, retainedDeadlines }
  | takeover {token : String} (intent : HookTakeover) (recorded : store.records[token]? ≠ none)
      (key : intent.deadlineKey = (intent.expiresAt, token)) (later : now < intent.expiresAt) :
      TokenWrite now store { store with
        takeovers := store.takeovers.insert token intent
        takeoverDeadlines := store.takeoverDeadlines.insert intent.deadlineKey token }
  | settle {key : Nat × String} :
      TokenWrite now store { store with
        takeovers := store.takeovers.erase key.2, takeoverDeadlines := store.takeoverDeadlines.erase key }
  | dropDeadline {key : Nat × String} (stale : ∀ intent ∈ store.takeovers[key.2]?, intent.deadlineKey ≠ key) :
      TokenWrite now store { store with takeoverDeadlines := store.takeoverDeadlines.erase key }

abbrev TokenWrites (now : Nat) : HookTokenStore → HookTokenStore → Prop := Relation.ReflTransGen (TokenWrite now)

/-- What a token shard keeps of its takeovers, besides its claims. -/
structure HookTokenStore.Sound (store : HookTokenStore) : Prop where
  scheduled : store.toIndexStore.Scheduled
  /-- A token under a takeover is not claimed. -/
  unclaimed : ∀ (token : String) intent, store.takeovers[token]? = some intent → store.claims[token]? = none
  /-- A pending takeover has its deadline. -/
  pending : ∀ (token : String) intent, store.takeovers[token]? = some intent →
    intent.deadlineKey = (intent.expiresAt, token) ∧ store.takeoverDeadlines[intent.deadlineKey]? = some token
  named : ∀ (key : Nat × String) token, store.takeoverDeadlines[key]? = some token → key.2 = token

section TokenWrites
variable {store after : HookTokenStore} {now passNow : Nat} {token : String}

theorem IndexWrite.claims {free : String → Prop} {index after : IndexStore} {name : String}
    (write : IndexWrite now free index after) (unclaimed : index.claims[name]? = none) (held : ¬ free name) :
    after.claims[name]? = none := by
  cases write with
  | claim other _ _ _ _ allowed =>
    simp only [IndexStore.putClaim, IndexStore.armAtMost_claims, Std.ExtTreeMap.getElem?_insert]
    split
    · rename_i same
      exact absurd (Std.LawfulEqCmp.eq_of_compare same ▸ allowed) held
    · exact unclaimed
  | renew stored =>
    simp only [IndexStore.renewClaim, IndexStore.armAtMost_claims, Std.ExtTreeMap.getElem?_insert]
    split
    · rename_i same
      cases unclaimed.symm.trans (Std.LawfulEqCmp.eq_of_compare same ▸ stored)
    · exact unclaimed
  | dropClaim =>
    simp only [IndexStore.dropClaim, Std.ExtTreeMap.getElem?_erase, unclaimed, ite_self]
  | _ => exact unclaimed

theorem HookTokenStore.Sound.write (sound : store.Sound) (write : TokenWrite now store after) :
    after.Sound := by
  cases write with
  | index write =>
    refine ⟨sound.scheduled.write write, fun token intent stored => ?_, sound.pending, sound.named⟩
    refine write.claims (sound.unclaimed token intent stored) fun unheld => ?_
    cases stored.symm.trans unheld
  | retained retained deadlines => exact ⟨sound.scheduled, sound.unclaimed, sound.pending, sound.named⟩
  | @takeover token intent recorded key later =>
    have unclaimed : store.claims[token]? = none := by
      by_contra claimed
      obtain ⟨claim, stored⟩ := Option.ne_none_iff_exists'.mp claimed
      exact recorded ((sound.scheduled token).claimed claim stored).2
    refine ⟨sound.scheduled, fun other found stored => ?_, fun other found stored => ?_,
      fun other named stored => ?_⟩
    · rw [Std.ExtTreeMap.getElem?_insert] at stored
      split at stored
      · rename_i same
        exact Std.LawfulEqCmp.eq_of_compare same ▸ unclaimed
      · exact sound.unclaimed other found stored
    · rw [Std.ExtTreeMap.getElem?_insert] at stored
      split at stored
      · rename_i same
        obtain rfl : token = other := Std.LawfulEqCmp.eq_of_compare same
        obtain rfl := Option.some.inj stored
        exact ⟨key, Std.ExtTreeMap.getElem?_insert_self⟩
      · rename_i different
        obtain ⟨ownKey, listed⟩ := sound.pending other found stored
        refine ⟨ownKey, ?_⟩
        rw [Std.ExtTreeMap.getElem?_insert, if_neg (by simp_all), listed]
    · rw [Std.ExtTreeMap.getElem?_insert] at stored
      split at stored
      · rename_i same
        obtain rfl : intent.deadlineKey = other := Std.LawfulEqCmp.eq_of_compare same
        exact congrArg Prod.snd key |>.trans (Option.some.inj stored)
      · exact sound.named other named stored
  | @settle key =>
    refine ⟨sound.scheduled, fun other found stored => ?_, fun other found stored => ?_,
      fun other named stored => ?_⟩
    · exact sound.unclaimed other found (stored_of_erase stored)
    · obtain ⟨ownKey, listed⟩ := sound.pending other found (stored_of_erase stored)
      refine ⟨ownKey, ?_⟩
      rw [Std.ExtTreeMap.getElem?_erase] at stored ⊢
      split at stored
      · cases stored
      · rename_i different
        rw [if_neg, listed]
        intro same
        obtain rfl : key = found.deadlineKey := Std.LawfulEqCmp.eq_of_compare same
        simp [ownKey] at different
    · rw [Std.ExtTreeMap.getElem?_erase] at stored
      split at stored
      · cases stored
      · exact sound.named other named stored
  | @dropDeadline key stale =>
    refine ⟨sound.scheduled, sound.unclaimed, fun other found stored => ?_, fun other named stored => ?_⟩
    · obtain ⟨ownKey, listed⟩ := sound.pending other found stored
      refine ⟨ownKey, ?_⟩
      rw [Std.ExtTreeMap.getElem?_erase, if_neg, listed]
      intro same
      obtain rfl : key = found.deadlineKey := Std.LawfulEqCmp.eq_of_compare same
      exact stale found (by simpa [ownKey] using stored) rfl
    · rw [Std.ExtTreeMap.getElem?_erase] at stored
      split at stored
      · cases stored
      · exact sound.named other named stored

theorem HookTokenStore.Sound.writes (sound : store.Sound) (writes : TokenWrites now store after) :
    after.Sound := by
  induction writes with
  | refl => exact sound
  | tail _ write ih => exact ih.write write

theorem TokenWrites.of_index {index : IndexStore}
    (writes : IndexWrites now (fun token => store.takeovers[token]? = none) store.toIndexStore index) :
    TokenWrites now store (HookTokenDO.withIndex store index) := by
  induction writes with
  | refl => exact .refl
  | @tail middle last _ write ih =>
    have moved : TokenWrite now (HookTokenDO.withIndex store middle) (HookTokenDO.withIndex store last) :=
      .index write
    exact ih.tail moved

theorem TokenWrites.renews {claim : HookClaim} (writes : TokenWrites now store after)
    (stored : after.claims[token]? = some claim) :
    store.claims[token]? = some claim ∨ now < claim.expiresAt := by
  induction writes with
  | refl => exact .inl stored
  | tail _ write ih =>
    cases write with
    | index write =>
      rcases write.renews stored with before | later
      · exact ih before
      · exact .inr later
    | _ => exact ih stored

theorem IndexStore.Due.tokenWrites {entry : (Nat × String) × ClaimDeadline}
    (found : store.toIndexStore.Due passNow entry)
    (passed : passNow ≤ now) (writes : TokenWrites now store after) :
    after.toIndexStore.Due passNow entry := by
  refine ⟨found.key, found.due, fun claim stored => ?_⟩
  rcases writes.renews stored with before | later
  · exact found.claim claim before
  · exact .inr (Nat.lt_of_le_of_lt passed later)

/-- A due takeover deadline that an alarm pass has found to belong to no pending takeover. -/
structure HookTokenStore.Stale (store : HookTokenStore) (passNow : Nat) (key : Nat × String) : Prop where
  due : key.1 ≤ passNow
  unowned : ∀ intent ∈ store.takeovers[key.2]?, intent.deadlineKey ≠ key

theorem HookTokenStore.Stale.writes {key : Nat × String} (stale : store.Stale passNow key)
    (passed : passNow ≤ now) (writes : TokenWrites now store after) : after.Stale passNow key := by
  induction writes with
  | refl => exact stale
  | tail _ write ih =>
    refine ⟨ih.due, fun found stored => ?_⟩
    cases write with
    | takeover intent recorded own later =>
      rw [Option.mem_def, Std.ExtTreeMap.getElem?_insert] at stored
      split at stored
      · obtain rfl := Option.some.inj stored
        intro same
        have due := ih.due
        rw [← same, own] at due
        simp only at due
        omega
      · exact ih.unowned found stored
    | settle => exact ih.unowned found (stored_of_erase stored)
    | _ => exact ih.unowned found stored

end TokenWrites

namespace HookTokenDO
variable {store after : HookTokenStore} {now passNow : Nat} {token : String} {owner : HookTokenOwner}

theorem dropRetained_scheduled {retained : RetainedToken} :
    TokenWrites now store (dropRetained store token retained) :=
  .single (.retained _ _)

theorem arm_scheduled {alarm : Option Nat} : TokenWrites now store { store with alarm } :=
  .of_index (.single (.arm alarm))

theorem retain_scheduled {untilMs : Nat} : TokenWrites now store (retain store token owner untilMs) := by
  have marked : TokenWrites now store (markRetained store token owner untilMs) := .single (.retained _ _)
  exact marked.trans (TokenWrites.of_index IndexStore.armAtMost_scheduled)

theorem dropRecord_scheduled :
    TokenWrites now store (withIndex store (store.toIndexStore.dropRecord token)) :=
  .of_index (.single (.dropRecord token))

/-- A token that is freed has no record and no takeover. -/
theorem freeExpiredRetention_scheduled {freed : HookTokenStore}
    (frees : freeExpiredRetention store token now = some freed) :
    TokenWrites passNow store freed ∧ freed.records[token]? = none ∧ freed.takeovers = store.takeovers := by
  unfold freeExpiredRetention at frees
  split at frees
  · split at frees
    · cases frees
    · cases frees
      refine ⟨dropRecord_scheduled.trans dropRetained_scheduled, ?_, rfl⟩
      simp [dropRetained, withIndex, IndexStore.dropRecord]
  · cases frees

theorem reserveClaim_scheduled {proposedClaimId : String} {expired : Option HookClaim}
    {committed : Option Hook}
    (unrecorded : store.records[token]? = none) (free : store.takeovers[token]? = none) :
    IndexWrites now (fun token => store.takeovers[token]? = none) store.toIndexStore
      (reserveClaim store token owner proposedClaimId expired committed now).2 := by
  unfold reserveClaim
  split
  · rename_i unclaimed
    exact .single (.claim token owner proposedClaimId unclaimed unrecorded free)
  · rename_i existing stored
    split
    · split
      · exact .refl
      split
      · exact .single (.renew stored)
      · refine (Relation.ReflTransGen.single (.dropClaim stored)).tail
          (.claim token owner proposedClaimId ?_ unrecorded free)
        simp [IndexStore.dropClaim]
    split <;> exact .refl

theorem reserve_scheduled {proposedClaimId : String} {expired : Option HookClaim} {committed : Option Hook} :
    TokenWrites now store (reserve store token owner proposedClaimId expired committed now).2 := by
  have freed : TokenWrites now store ((freeExpiredRetention store token now).getD store) := by
    cases frees : freeExpiredRetention store token now with
    | none => exact .refl
    | some freed => exact (freeExpiredRetention_scheduled frees).1
  unfold reserve
  split
  · exact .refl
  rename_i unheld
  simp only
  split
  · split <;> exact freed
  · rename_i free
    refine freed.trans (TokenWrites.of_index (reserveClaim_scheduled ?_ free))
    cases frees : freeExpiredRetention store token now with
    | some freed => exact (@freeExpiredRetention_scheduled store now now token freed frees).2.1
    | none =>
      cases recorded : store.records[token]? with
      | none => simpa [frees] using recorded
      | some indexed => exact absurd frees (unheld indexed recorded)

theorem recordTakeover_scheduled {indexed : Hook} {takeOver victimRunning : Bool} {proposedClaimId : String}
    {claimedFrom : HookClaimedFrom} :
    TokenWrites now store (recordTakeover store token indexed takeOver owner proposedClaimId victimRunning
      claimedFrom now).2 := by
  unfold recordTakeover
  split
  · exact .refl
  rename_i current
  split
  · simp only
    split
    · exact dropRecord_scheduled.trans dropRetained_scheduled
    · exact dropRecord_scheduled
  · obtain ⟨recorded, -⟩ := not_or.mp current
    have later : now < now + HOOK_TAKEOVER_SETTLE_MS := Nat.lt_add_of_pos_right (by decide)
    refine (Relation.ReflTransGen.single (.takeover _ ?_ rfl later)).trans
      (TokenWrites.of_index IndexStore.armAtMost_scheduled)
    rw [not_not.mp recorded]
    exact Option.some_ne_none indexed

/-- The takeover that was observed carries a deadline of its own token. -/
theorem dropTakeover_scheduled {intent : HookTakeover} (own : intent.deadlineKey.2 = token) :
    TokenWrites now store (dropTakeover store token intent) := by
  subst own
  have settled : TokenWrite now store { store with
      takeovers := store.takeovers.erase intent.deadlineKey.2
      takeoverDeadlines := store.takeoverDeadlines.erase intent.deadlineKey } := .settle
  unfold dropTakeover
  split
  · exact .refl
  simp only
  split
  · refine ((Relation.ReflTransGen.single settled).tail ?_).trans
      (TokenWrites.of_index IndexStore.armAtMost_scheduled)
    exact .retained _ _
  · exact .single settled

theorem repointRecord_scheduled {intent : HookTakeover} {hook : Option Hook} (sound : store.Sound)
    (own : intent.deadlineKey.2 = token) :
    TokenWrites now store (repointRecord store token intent hook).2 := by
  subst own
  unfold repointRecord
  split
  · exact .refl
  rename_i pending
  obtain ⟨stored, taken, -⟩ := (Option.any_eq_true _ _).mp (Bool.not_eq_false _ ▸ pending)
  have unclaimed := sound.unclaimed _ stored taken
  have pointed (index : IndexStore)
      (writes : IndexWrites now (fun token => store.takeovers[token]? = none) store.toIndexStore index) :
      TokenWrites now store (withIndex { store with
        takeovers := store.takeovers.erase intent.deadlineKey.2
        takeoverDeadlines := store.takeoverDeadlines.erase intent.deadlineKey } index) :=
    (TokenWrites.of_index writes).tail .settle
  cases hook with
  | some hook =>
    have settled := pointed _ (.single (.record hook unclaimed))
    simp only
    split
    · exact settled.trans dropRetained_scheduled
    · exact settled
  | none =>
    have settled := pointed _ (.single (.dropRecord intent.deadlineKey.2))
    simp only
    split
    · exact settled.trans dropRetained_scheduled
    · exact settled

theorem preemptClaim_scheduled {observed : HookClaim} {hook : Option Hook} :
    TokenWrites now store (preemptClaim store token observed hook).2 := by
  unfold preemptClaim
  split
  · rename_i current stored
    split
    · cases hook with
      | none => exact .of_index (.single (.dropClaim stored))
      | some hook => exact .of_index (IndexStore.publish_scheduled stored)
    · exact .refl
  · exact .refl

theorem finalize_scheduled {hook : Hook} {claimId : Option String} {active stored : Bool}
    (finalized : finalize store token hook owner claimId active now = .ok (stored, after)) :
    TokenWrites now store after := by
  obtain ⟨index, published, same⟩ := bind_ok.mp finalized
  have written : TokenWrites now store (withIndex store index) :=
    .of_index (IndexStore.publishRecord_scheduled published)
  obtain ⟨-, rfl⟩ := Prod.mk.inj (Except.ok.inj same)
  split
  · exact written.trans retain_scheduled
  · exact written

theorem releaseHook_scheduled {runEnded : Bool} :
    TokenWrites now store (releaseHook store runEnded now token owner) := by
  have claimless : TokenWrites now store (withIndex store (store.toIndexStore.dropOwnClaim token owner)) :=
    .of_index IndexStore.dropOwnClaim_scheduled
  unfold releaseHook
  simp only
  split
  · split
    · split
      · exact claimless.trans retain_scheduled
      · exact claimless
      · exact (claimless.trans dropRecord_scheduled).trans dropRetained_scheduled
      · exact claimless.trans dropRecord_scheduled
    · exact claimless
  · exact claimless

theorem releaseBatch_scheduled {hooks : List (String × HookTokenOwner)} {runEnded : Bool} {deleted : Nat}
    (released : releaseBatch store hooks runEnded now = .ok (deleted, after)) :
    TokenWrites now store after := by
  unfold releaseBatch at released
  split at released
  · cases released
  cases released
  exact foldl_steps fun _ _ _ => releaseHook_scheduled

theorem compactRetained_scheduled {page : List ((Nat × String) × String)} :
    TokenWrites now store (compactRetained store passNow page) := by
  refine foldl_steps fun current item _ => ?_
  have dropped (freed : HookTokenStore) : TokenWrites now freed
      { freed with retainedDeadlines := freed.retainedDeadlines.erase item.1 } := .single (.retained _ _)
  simp only
  split
  · cases frees : freeExpiredRetention current item.2 passNow with
    | none => exact dropped current
    | some freed => exact (freeExpiredRetention_scheduled frees).1.trans (dropped freed)
  · exact dropped current

/-- The stale deadlines of a page are dropped one after another. -/
theorem dropStaleTakeovers_scheduled {stale : List ((Nat × String) × String)}
    (owned : ∀ entry ∈ stale, store.Stale passNow entry.1) :
    TokenWrites now store (dropStaleTakeovers store stale) := by
  unfold dropStaleTakeovers
  induction stale generalizing store with
  | nil => exact .refl
  | cons entry stale ih =>
    have head : TokenWrite now store { store with takeoverDeadlines := store.takeoverDeadlines.erase entry.1 } :=
      .dropDeadline (owned entry (.head _)).unowned
    refine .head head (@ih { store with takeoverDeadlines := store.takeoverDeadlines.erase entry.1 }
      fun other member => ?_)
    exact ⟨(owned other (.tail _ member)).due, (owned other (.tail _ member)).unowned⟩

theorem rearm_scheduled {more clearedWhileRunning : Bool} {nexts : List (Option Nat)} :
    TokenWrites now store (rearm store more nexts clearedWhileRunning passNow) := by
  unfold rearm
  split <;> exact arm_scheduled

end HookTokenDO

/-- What a party must have observed of a shard before it works on its deadlines. -/
def TokenCall.Observed (fleet : Fleet) {β : Type} : TokenCall β → Prop
  | .dropTakeover token intent => intent.deadlineKey.2 = token
  | .repointRecord token intent _ => intent.deadlineKey.2 = token
  | .compactClaims shard passNow page =>
    ∀ item ∈ page, (fleet.tokens shard).toIndexStore.Due passNow (item.deadline, item.item)
  | .dropStaleTakeovers shard stale => ∃ passNow, ∀ entry ∈ stale, (fleet.tokens shard).Stale passNow entry.1
  | _ => True

def HookIdCall.Observed (fleet : Fleet) {β : Type} : HookIdCall β → Prop
  | .compactClaims shard passNow page _ =>
    ∀ item ∈ page, (fleet.hookIds shard).Due passNow (item.deadline, item.item)
  | _ => True

namespace Fleet
variable {route : Routing} {fleet : Fleet} {β : Type}

theorem setTokens_scheduled {shard : String} {store : HookTokenStore}
    (writes : TokenWrites fleet.now (fleet.tokens shard) store) (other : String) :
    TokenWrites fleet.now (fleet.tokens other) ((fleet.setTokens shard store).tokens other) := by
  simp only [setTokens]
  split
  · rename_i same
    exact same ▸ writes
  · exact .refl

theorem setHookIds_scheduled {shard : String} {store : HookIdStore}
    (writes : IndexWrites fleet.now (fun _ => True) (fleet.hookIds shard) store) (other : String) :
    IndexWrites fleet.now (fun _ => True) (fleet.hookIds other)
      ((fleet.setHookIds shard store).hookIds other) := by
  simp only [setHookIds]
  split
  · rename_i same
    exact same ▸ writes
  · exact .refl

/-- A call to a token shard is a transaction of it. -/
theorem callTokens_scheduled {call : TokenCall β} (observed : call.Observed fleet)
    (sound : ∀ shard, (fleet.tokens shard).Sound)
    (shard : String) : TokenWrites fleet.now (fleet.tokens shard)
      ((fleet.callTokens route call).2.tokens shard) := by
  cases call with
  | read => exact .refl
  | reserve => exact setTokens_scheduled HookTokenDO.reserve_scheduled shard
  | recordTakeover => exact setTokens_scheduled HookTokenDO.recordTakeover_scheduled shard
  | dropTakeover => exact setTokens_scheduled (HookTokenDO.dropTakeover_scheduled observed) shard
  | repointRecord => exact setTokens_scheduled (HookTokenDO.repointRecord_scheduled (sound _) observed) shard
  | preemptClaim => exact setTokens_scheduled HookTokenDO.preemptClaim_scheduled shard
  | finalize =>
    simp only [callTokens]
    split
    · rename_i finalized
      exact setTokens_scheduled (HookTokenDO.finalize_scheduled finalized) shard
    · exact .refl
  | releaseClaim => exact setTokens_scheduled (TokenWrites.of_index IndexStore.releaseClaim_scheduled) shard
  | releaseBatch =>
    simp only [callTokens]
    split
    · rename_i released
      exact setTokens_scheduled (HookTokenDO.releaseBatch_scheduled released) shard
    · exact .refl
  | publishCommittedClaim =>
    exact setTokens_scheduled (TokenWrites.of_index IndexStore.publishCommittedClaim_scheduled) shard
  | withdraw => exact setTokens_scheduled (TokenWrites.of_index IndexStore.withdraw_scheduled) shard
  | startAlarm => exact setTokens_scheduled HookTokenDO.arm_scheduled shard
  | compactClaims =>
    exact setTokens_scheduled
      (TokenWrites.of_index (IndexStore.compactClaims_scheduled (sound _).scheduled observed)) shard
  | compactRetained => exact setTokens_scheduled HookTokenDO.compactRetained_scheduled shard
  | dropStaleTakeovers =>
    obtain ⟨passNow, stale⟩ := observed
    exact setTokens_scheduled (HookTokenDO.dropStaleTakeovers_scheduled stale) shard
  | rearm => exact setTokens_scheduled HookTokenDO.rearm_scheduled shard
  | retryAlarm => exact setTokens_scheduled HookTokenDO.arm_scheduled shard

/-- A call to a hook-ID shard is a transaction of it. -/
theorem callHookIds_scheduled {call : HookIdCall β} (observed : call.Observed fleet)
    (scheduled : ∀ shard, (fleet.hookIds shard).Scheduled) (shard : String) :
    IndexWrites fleet.now (fun _ => True) (fleet.hookIds shard)
      ((fleet.callHookIds route call).2.hookIds shard) := by
  cases call with
  | read => exact .refl
  | reserve => exact setHookIds_scheduled HookIdDO.reserve_scheduled shard
  | publish =>
    simp only [callHookIds]
    split
    · rename_i published
      exact setHookIds_scheduled (IndexStore.publishRecord_scheduled published) shard
    · exact .refl
  | releaseClaim => exact setHookIds_scheduled IndexStore.releaseClaim_scheduled shard
  | releaseBatch =>
    simp only [callHookIds]
    split
    · rename_i released
      exact setHookIds_scheduled (HookIdDO.releaseBatch_scheduled released) shard
    · exact .refl
  | publishCommittedClaim => exact setHookIds_scheduled IndexStore.publishCommittedClaim_scheduled shard
  | withdraw => exact setHookIds_scheduled IndexStore.withdraw_scheduled shard
  | compactClaims => exact setHookIds_scheduled (HookIdDO.compactClaims_scheduled (scheduled _) observed) shard
  | retryAlarm => exact setHookIds_scheduled (.single (.arm _)) shard

end Fleet

end CelldWorld
