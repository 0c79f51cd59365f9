import CelldWorld.HookRecords
import Mathlib.Logic.Relation

namespace CelldWorld

theorem stored_of_erase {ν : Type} {map : KeyMap ν} {erased name : String} {value : ν}
    (stored : (map.erase erased)[name]? = some value) : map[name]? = some value := by
  rw [Std.ExtTreeMap.getElem?_erase] at stored
  split at stored
  · cases stored
  · exact stored

/-- One write of an index shard. A claim is put only where `free` allows one. -/
inductive IndexWrite (now : Nat) (free : String → Prop) (store : IndexStore) : IndexStore → Prop
  | claim (name : String) (owner : HookTokenOwner) (claimId : String) (unclaimed : store.claims[name]? = none)
      (unrecorded : store.records[name]? = none) (allowed : free name) :
      IndexWrite now free store (store.putClaim name owner claimId now)
  | renew {name : String} {claim : HookClaim} (stored : store.claims[name]? = some claim) :
      IndexWrite now free store (store.renewClaim name claim now)
  | dropClaim {name : String} {claim : HookClaim} (stored : store.claims[name]? = some claim) :
      IndexWrite now free store (store.dropClaim name claim)
  | dropDeadline {key : Nat × String} (stale : ∀ claim ∈ store.claims[key.2]?, claim.expiresAt ≠ key.1) :
      IndexWrite now free store { store with claimDeadlines := store.claimDeadlines.erase key }
  | record {name : String} (hook : Hook) (unclaimed : store.claims[name]? = none) :
      IndexWrite now free store (store.putRecord name hook)
  | dropRecord (name : String) : IndexWrite now free store (store.dropRecord name)
  | arm (alarm : Option Nat) : IndexWrite now free store { store with alarm }

/-- A transaction is a sequence of writes. -/
abbrev IndexWrites (now : Nat) (free : String → Prop) : IndexStore → IndexStore → Prop :=
  Relation.ReflTransGen (IndexWrite now free)

/-- A transaction that handles one entry after another. -/
theorem foldl_steps {σ α : Type} {step : σ → σ → Prop} {handle : σ → α → σ} {entries : List α} {state : σ}
    (steps : ∀ current, ∀ entry ∈ entries, Relation.ReflTransGen step current (handle current entry)) :
    Relation.ReflTransGen step state (entries.foldl handle state) := by
  induction entries generalizing state with
  | nil => exact .refl
  | cons entry entries ih =>
    have head := steps state entry (.head _)
    exact head.trans (ih fun current other member => steps current other (.tail _ member))

namespace IndexStore

/-- The deadlines under `name` are exactly that of its claim, and a claimed name has no record. -/
structure ScheduledAt (store : IndexStore) (name : String) : Prop where
  deadlines : ∀ time : Nat, store.claimDeadlines[(time, name)]? =
    (store.claims[name]?.filter (·.expiresAt = time)).map fun claim => ⟨name, claim.claimId, claim.expiresAt⟩
  claimed : ∀ claim ∈ store.claims[name]?, claim.deadlineKey = (claim.expiresAt, name) ∧
    store.records[name]? = none

def Scheduled (store : IndexStore) : Prop := ∀ name, store.ScheduledAt name

variable {store after : IndexStore} {now passNow : Nat} {free : String → Prop} {name : String} {claim : HookClaim}

@[simp] theorem armAtMost_claims {time : Nat} : (store.armAtMost time).claims = store.claims := by
  unfold armAtMost
  split <;> rfl

@[simp] theorem armAtMost_claimDeadlines {time : Nat} :
    (store.armAtMost time).claimDeadlines = store.claimDeadlines := by
  unfold armAtMost
  split <;> rfl

theorem ScheduledAt.of_same {other : String} (scheduled : store.ScheduledAt other)
    (claims : after.claims[other]? = store.claims[other]?)
    (records : after.records[other]? = store.records[other]?)
    (deadlines : ∀ time : Nat, after.claimDeadlines[(time, other)]? = store.claimDeadlines[(time, other)]?) :
    after.ScheduledAt other where
  deadlines time := by rw [deadlines, claims, scheduled.deadlines]
  claimed claim stored := by
    rw [records]
    exact scheduled.claimed claim (claims ▸ stored)

theorem ScheduledAt.of_unclaimed (claims : after.claims[name]? = none)
    (deadlines : ∀ time : Nat, after.claimDeadlines[(time, name)]? = none) : after.ScheduledAt name where
  deadlines time := by rw [deadlines, claims, Option.filter_none, Option.map_none]
  claimed claim stored := by rw [claims] at stored; cases stored

theorem ScheduledAt.of_claimed (claim : HookClaim) (claims : after.claims[name]? = some claim)
    (key : claim.deadlineKey = (claim.expiresAt, name)) (unrecorded : after.records[name]? = none)
    (deadlines : ∀ time : Nat, after.claimDeadlines[(time, name)]? =
      if claim.expiresAt = time then some ⟨name, claim.claimId, claim.expiresAt⟩ else none) :
        after.ScheduledAt name where
  deadlines time := by
    rw [deadlines, claims, Option.filter_some]
    by_cases due : claim.expiresAt = time
    · simp [due]
    · simp [due]
  claimed other stored := by
    obtain rfl := Option.some.inj (claims.symm.trans stored)
    exact ⟨key, unrecorded⟩

theorem Scheduled.unclaimed (scheduled : store.Scheduled) (claims : store.claims[name]? = none) (time : Nat) :
    store.claimDeadlines[(time, name)]? = none := by
  rw [(scheduled name).deadlines, claims, Option.filter_none, Option.map_none]

theorem Scheduled.deadline (scheduled : store.Scheduled) (stored : store.claims[name]? = some claim)
    (time : Nat) :
    store.claimDeadlines[(time, name)]? = if claim.expiresAt = time then
      some ⟨name, claim.claimId, claim.expiresAt⟩ else none := by
  rw [(scheduled name).deadlines, stored, Option.filter_some]
  by_cases due : claim.expiresAt = time
  · simp [due]
  · simp [due]

/-- Every write keeps each claim with its deadline. -/
theorem Scheduled.write (scheduled : store.Scheduled) (write : IndexWrite now free store after) :
    after.Scheduled := by
  intro other
  cases write with
  | @claim name owner claimId unclaimed unrecorded allowed =>
    by_cases same : name = other
    · subst same
      refine .of_claimed ⟨owner, claimId, now, now + HOOK_CLAIM_LEASE_MS,
        (now + HOOK_CLAIM_LEASE_MS, name)⟩ ?_ rfl ?_ ?_
      · simp [putClaim]
      · simpa [putClaim] using unrecorded
      · intro time
        have none := scheduled.unclaimed unclaimed time
        simp [putClaim, Std.ExtTreeMap.getElem?_insert, none]
    · refine (scheduled other).of_same ?_ ?_ fun time => ?_
      · simp [putClaim, Std.ExtTreeMap.getElem?_insert, same]
      · simp [putClaim]
      · simp [putClaim, Std.ExtTreeMap.getElem?_insert, same]
  | @renew name claim stored =>
    obtain ⟨key, unrecorded⟩ := (scheduled name).claimed claim stored
    by_cases same : name = other
    · subst same
      let renewed : HookClaim :=
        { claim with expiresAt := now + HOOK_CLAIM_LEASE_MS, deadlineKey := (now + HOOK_CLAIM_LEASE_MS, name) }
      refine .of_claimed renewed ?_ rfl ?_ ?_
      · simp [renewClaim, renewed]
      · simpa [renewClaim] using unrecorded
      · intro time
        have erased : (store.claimDeadlines.erase claim.deadlineKey)[(time, name)]? = none := by
          rw [Std.ExtTreeMap.getElem?_erase]
          split
          · rfl
          · rename_i other
            rw [scheduled.deadline stored, if_neg (by simpa [key] using other)]
        simp [renewClaim, renewed, Std.ExtTreeMap.getElem?_insert, erased]
    · refine (scheduled other).of_same ?_ ?_ fun time => ?_
      · simp [renewClaim, Std.ExtTreeMap.getElem?_insert, same]
      · simp [renewClaim]
      · simp [renewClaim, Std.ExtTreeMap.getElem?_insert, Std.ExtTreeMap.getElem?_erase, key, same]
  | @dropClaim name claim stored =>
    obtain ⟨key, unrecorded⟩ := (scheduled name).claimed claim stored
    by_cases same : name = other
    · subst same
      refine .of_unclaimed (by simp [dropClaim]) fun time => ?_
      have before := scheduled.deadline stored time
      simp [dropClaim, Std.ExtTreeMap.getElem?_erase, key, before]
    · refine (scheduled other).of_same ?_ rfl fun time => ?_
      · simp [dropClaim, Std.ExtTreeMap.getElem?_erase, same]
      · simp [dropClaim, Std.ExtTreeMap.getElem?_erase, key, same]
  | @dropDeadline key stale =>
    refine (scheduled other).of_same rfl rfl fun time => ?_
    rw [Std.ExtTreeMap.getElem?_erase]
    split
    · rename_i same
      obtain rfl : key = (time, other) := Std.LawfulEqCmp.eq_of_compare same
      cases stored : store.claims[other]? with
      | none => exact (scheduled.unclaimed stored time).symm
      | some claim => rw [scheduled.deadline stored, if_neg (stale claim stored)]
    · rfl
  | @record name hook unclaimed =>
    by_cases same : name = other
    · subst same
      exact .of_unclaimed unclaimed fun time => scheduled.unclaimed unclaimed time
    · refine (scheduled other).of_same rfl ?_ fun time => rfl
      simp [putRecord, Std.ExtTreeMap.getElem?_insert, same]
  | dropRecord name =>
    refine ⟨(scheduled other).deadlines, fun claim stored => ?_⟩
    obtain ⟨key, unrecorded⟩ := (scheduled other).claimed claim stored
    refine ⟨key, ?_⟩
    simp only [dropRecord, Std.ExtTreeMap.getElem?_erase, unrecorded, ite_self]
  | arm alarm => exact (scheduled other).of_same rfl rfl fun time => rfl

theorem Scheduled.writes (scheduled : store.Scheduled) (writes : IndexWrites now free store after) :
    after.Scheduled := by
  induction writes with
  | refl => exact scheduled
  | tail _ write ih => exact ih.write write

end IndexStore

section Writes
variable {store after : IndexStore} {now : Nat} {free : String → Prop} {name : String} {claim : HookClaim}

/-- A claim that was not there before expires after the write. -/
theorem IndexWrite.renews (write : IndexWrite now free store after)
    (stored : after.claims[name]? = some claim) :
    store.claims[name]? = some claim ∨ now < claim.expiresAt := by
  have later : now < now + HOOK_CLAIM_LEASE_MS := Nat.lt_add_of_pos_right (by decide)
  cases write with
  | claim =>
    simp only [IndexStore.putClaim, IndexStore.armAtMost_claims, Std.ExtTreeMap.getElem?_insert] at stored
    split at stored
    · exact .inr (Option.some.inj stored ▸ later)
    · exact .inl stored
  | renew =>
    simp only [IndexStore.renewClaim, IndexStore.armAtMost_claims, Std.ExtTreeMap.getElem?_insert] at stored
    split at stored
    · exact .inr (Option.some.inj stored ▸ later)
    · exact .inl stored
  | dropClaim => exact .inl (stored_of_erase stored)
  | _ => exact .inl stored

theorem IndexWrites.renews (writes : IndexWrites now free store after)
    (stored : after.claims[name]? = some claim) :
    store.claims[name]? = some claim ∨ now < claim.expiresAt := by
  induction writes with
  | refl => exact .inl stored
  | tail _ write ih =>
    rcases write.renews stored with before | later
    · exact ih before
    · exact .inr later

end Writes

namespace IndexStore
variable {store after : IndexStore} {now passNow : Nat} {free : String → Prop}

/-- A deadline that an alarm pass has found due. The claim of its name is the one it was written for, or
expires later. -/
structure Due (store : IndexStore) (passNow : Nat) (entry : (Nat × String) × ClaimDeadline) : Prop where
  key : entry.1 = (entry.2.expiresAt, entry.2.name)
  due : entry.2.expiresAt ≤ passNow
  claim : ∀ claim ∈ store.claims[entry.2.name]?,
    (claim.claimId = entry.2.claimId ∧ claim.expiresAt = entry.2.expiresAt) ∨ passNow < claim.expiresAt

theorem Due.writes {entry : (Nat × String) × ClaimDeadline} (found : store.Due passNow entry)
    (passed : passNow ≤ now) (writes : IndexWrites now free store after) : after.Due passNow entry := by
  refine ⟨found.key, found.due, fun claim stored => ?_⟩
  rcases IndexWrites.renews writes stored with before | later
  · exact found.claim claim before
  · exact .inr (Nat.lt_of_le_of_lt passed later)

theorem Scheduled.due {entry : (Nat × String) × ClaimDeadline} (scheduled : store.Scheduled)
    (listed : store.claimDeadlines[entry.1]? = some entry.2) (due : entry.1.1 ≤ passNow) :
    store.Due passNow entry := by
  obtain ⟨⟨time, name⟩, item⟩ := entry
  simp only at listed due
  rw [(scheduled name).deadlines] at listed
  obtain ⟨claim, stored, rfl⟩ := Option.map_eq_some_iff.mp listed
  obtain ⟨claimed, same⟩ := Option.filter_eq_some_iff.mp stored
  obtain rfl := of_decide_eq_true same
  refine ⟨rfl, due, fun other found => ?_⟩
  obtain rfl := Option.some.inj (claimed.symm.trans found)
  exact .inl ⟨rfl, rfl⟩

section Transactions
variable {name : String} {owner : HookTokenOwner} {claimId : String} {hook : Hook}

theorem armAtMost_scheduled {time : Nat} : IndexWrites now free store (store.armAtMost time) := by
  unfold armAtMost
  split
  · exact .single (.arm _)
  · exact .refl

theorem releaseClaim_scheduled : IndexWrites now free store (store.releaseClaim name owner claimId) := by
  unfold releaseClaim
  split
  · rename_i claim stored
    split
    · exact .single (.dropClaim stored)
    · exact .refl
  · exact .refl

theorem dropOwnClaim_scheduled : IndexWrites now free store (store.dropOwnClaim name owner) := by
  unfold dropOwnClaim
  split
  · rename_i claim stored
    split
    · exact .single (.dropClaim stored)
    · exact .refl
  · exact .refl

theorem withdraw_scheduled : IndexWrites now free store (store.withdraw name owner) := by
  unfold withdraw
  split
  · exact .single (.dropRecord name)
  · exact .refl

theorem release_scheduled : IndexWrites now free store (store.release name owner) :=
  withdraw_scheduled.trans dropOwnClaim_scheduled

/-- The record takes the place of the claim. -/
theorem publish_scheduled {claim : HookClaim} (stored : store.claims[name]? = some claim) :
    IndexWrites now free store ((store.putRecord name hook).dropClaim name claim) := by
  have dropped : IndexWrite now free store (store.dropClaim name claim) := .dropClaim stored
  have unclaimed : (store.dropClaim name claim).claims[name]? = none := by simp [dropClaim]
  exact (Relation.ReflTransGen.single dropped).tail (.record hook unclaimed)

theorem publishRecord_scheduled {label : String} {proposed : Option String}
    (published : store.publishRecord label name hook owner proposed now = .ok after) :
    IndexWrites now free store after := by
  unfold publishRecord at published
  split at published
  · cases published
  split at published
  · rename_i claim stored
    split at published
    · cases published
    split at published
    · cases published
    cases published
    exact publish_scheduled stored
  · rename_i unclaimed
    split at published
    · cases published
    cases published
    exact .single (.record hook unclaimed)

theorem publishCommittedClaim_scheduled {observed : HookClaim} :
    IndexWrites now free store (store.publishCommittedClaim name observed hook).2 := by
  unfold publishCommittedClaim
  split
  · exact .refl
  · rename_i claim unrecorded stored
    split
    · exact publish_scheduled stored
    · exact .refl
  · exact .refl

/-- The claim of a name goes with the deadline of its page. -/
theorem clear_scheduled {key : Nat × String} (own : key.2 = name)
    (claims : ∀ claim ∈ store.claims[name]?, claim.deadlineKey = key) : IndexWrites now free store
      { store with claims := store.claims.erase name, claimDeadlines := store.claimDeadlines.erase key } := by
  cases stored : store.claims[name]? with
  | some claim =>
    have dropped : IndexWrite now free store (store.dropClaim name claim) := .dropClaim stored
    unfold dropClaim at dropped
    rw [claims claim stored] at dropped
    exact .single dropped
  | none =>
    have absent : store.claims.erase name = store.claims := by
      apply Std.ExtTreeMap.ext_getElem?
      intro other
      rw [Std.ExtTreeMap.getElem?_erase]
      split
      · rename_i same
        obtain rfl : name = other := Std.LawfulEqCmp.eq_of_compare same
        exact stored.symm
      · rfl
    rw [absent]
    refine .single (.dropDeadline fun claim found => ?_)
    rw [own, stored] at found
    cases found

/-- One item of a page, after earlier items of the page. -/
theorem compactClaim_scheduled {current : IndexStore} {page : CompactedClaim} (scheduled : store.Scheduled)
    (due : store.Due passNow (page.deadline, page.item))
    (kept : ∀ (name : String) claim, current.claims[name]? = some claim → store.claims[name]? = some claim) :
    IndexWrites now free current (current.compactClaim store passNow page) := by
  obtain ⟨key, dueTime, claimed⟩ := due
  simp only at key dueTime claimed
  unfold compactClaim
  split
  · rename_i applies
    split
    · rename_i claim observed stored _
      split
      · obtain ⟨same, expired⟩ : claim.claimId = page.item.claimId ∧ claim.expiresAt ≤ passNow := by
          simpa [deadlineApplies, stored] using applies
        have expires : claim.expiresAt = page.item.expiresAt := by
          rcases claimed claim stored with found | later
          · exact found.2
          · omega
        have deadline : claim.deadlineKey = page.deadline := by
          rw [((scheduled page.item.name).claimed claim stored).1, key, expires]
        have cleared : IndexWrites now free current { current with
            claims := current.claims.erase page.item.name, claimDeadlines :=
              current.claimDeadlines.erase page.deadline } := by
          refine clear_scheduled (by rw [key]) fun other found => ?_
          obtain rfl := Option.some.inj (stored.symm.trans (kept _ other found))
          exact deadline
        cases page.committed with
        | none => exact cleared
        | some hook => exact cleared.tail (.record hook (by simp))
      · exact .refl
    · exact .refl
  · rename_i applies
    refine .single (.dropDeadline fun claim found expires => applies ?_)
    rw [key] at found expires
    have stored := kept page.item.name claim found
    simp only [deadlineApplies, stored, Option.any_some, decide_eq_true_eq]
    rcases claimed claim stored with ⟨same, -⟩ | later
    · exact ⟨same, Nat.le_trans (Nat.le_of_eq expires) dueTime⟩
    · omega

theorem compactClaim_keeps {current : IndexStore} {page : CompactedClaim} {claim : HookClaim}
    (stored : (current.compactClaim store passNow page).claims[name]? = some claim) :
    current.claims[name]? = some claim := by
  have erased (hooked : IndexStore) (claims : hooked.claims = current.claims)
      (found : (hooked.claims.erase page.item.name)[name]? = some claim) : current.claims[name]? = some claim :=
    stored_of_erase (claims ▸ found)
  unfold compactClaim at stored
  split at stored
  · split at stored
    · split at stored
      · refine erased _ ?_ stored
        cases page.committed <;> rfl
      · exact stored
    · exact stored
  · exact stored

theorem compactClaims_scheduled {page : List CompactedClaim} (scheduled : store.Scheduled)
    (due : ∀ item ∈ page, store.Due passNow (item.deadline, item.item)) :
    IndexWrites now free store (store.compactClaims passNow page) := by
  have fold (current : IndexStore) (kept : ∀ (name : String) claim, current.claims[name]? = some claim →
    store.claims[name]? = some claim) :
      IndexWrites now free current
        (page.foldl (fun current item => current.compactClaim store passNow item) current) := by
    induction page generalizing current with
    | nil => exact .refl
    | cons item page ih =>
      have head : IndexWrites now free current (current.compactClaim store passNow item) :=
        compactClaim_scheduled scheduled (due item (.head _)) kept
      exact head.trans (ih (fun other member => due other (.tail _ member)) _ fun name claim stored =>
        kept name claim (compactClaim_keeps stored))
  exact fold store fun _ _ stored => stored

end Transactions

end IndexStore

namespace HookIdDO
variable {store after : HookIdStore} {now passNow : Nat} {hookId : String} {owner : HookTokenOwner}

/-- A claim that takes the place of another one is put as if that had been dropped. -/
theorem putClaim_dropClaim {existing : HookClaim} {claimId : String} :
    (store.dropClaim hookId existing).putClaim hookId owner claimId now =
      ({ store with claimDeadlines := store.claimDeadlines.erase existing.deadlineKey }).putClaim hookId
        owner claimId now := by
  have same (claim : HookClaim) : (store.claims.erase hookId).insert hookId claim =
      store.claims.insert hookId claim := by
    apply Std.ExtTreeMap.ext_getElem?
    intro other
    simp only [Std.ExtTreeMap.getElem?_insert, Std.ExtTreeMap.getElem?_erase]
    split <;> rfl
  unfold IndexStore.putClaim
  simp only [IndexStore.dropClaim, same]

theorem reserve_scheduled {proposedClaimId : String} {expired : Option HookClaim} {committed : Option Hook} :
    IndexWrites now (fun _ => True) store
      (reserve hookId owner proposedClaimId expired committed now store).2 := by
  unfold reserve
  split
  · exact .refl
  · rename_i unrecorded unclaimed
    exact .single (.claim hookId owner proposedClaimId unclaimed unrecorded trivial)
  · rename_i existing unrecorded stored
    have replaced : IndexWrites now (fun _ => True) store
        ((store.dropClaim hookId existing).putClaim hookId owner proposedClaimId now) := by
      have dropped : IndexWrite now (fun _ => True) store (store.dropClaim hookId existing) := .dropClaim stored
      exact (Relation.ReflTransGen.single dropped).tail
        (.claim hookId owner proposedClaimId (by simp [IndexStore.dropClaim]) unrecorded trivial)
    split
    · split
      · exact .refl
      split
      · exact .single (.renew stored)
      · exact replaced
    split
    · exact .refl
    split
    · exact putClaim_dropClaim ▸ replaced
    · exact .refl

theorem releaseBatch_scheduled {hooks : List (String × HookTokenOwner)} {deleted : Nat}
    (released : releaseBatch hooks store = .ok (deleted, after)) :
    IndexWrites now (fun _ => True) store after := by
  unfold releaseBatch at released
  split at released
  · cases released
  cases released
  exact foldl_steps fun _ _ _ => IndexStore.release_scheduled

theorem compactClaims_scheduled {page : List CompactedClaim} {more : Bool} (scheduled : store.Scheduled)
    (due : ∀ item ∈ page, store.Due passNow (item.deadline, item.item)) :
    IndexWrites now (fun _ => True) store (compactClaims passNow page more store) := by
  have compacted : IndexWrites now (fun _ => True) store (store.compactClaims passNow page) :=
    IndexStore.compactClaims_scheduled scheduled due
  unfold compactClaims
  simp only
  split <;> exact compacted.tail (.arm _)

end HookIdDO

end CelldWorld
