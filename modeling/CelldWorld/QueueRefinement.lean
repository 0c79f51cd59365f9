import CelldWorld.QueueCell

namespace CelldWorld

/-- The arguments that a claim cell takes. -/
def QueueClaimCall.accepted : QueueClaimCall → Prop
  | .reserve messageId expiresAt _ => messageId ≠ "" ∧ expiresAt ≤ MAX_SAFE_INTEGER
  | .confirmPublication messageId expiresAt => messageId ≠ "" ∧ expiresAt ≤ MAX_SAFE_INTEGER
  | .claim messageId staleMs => messageId ≠ "" ∧ staleMs ≠ 0 ∧ staleMs ≤ MAX_SAFE_INTEGER
  | .hold messageId retryAt expiresAt reservationExpiresAt =>
    messageId ≠ "" ∧ retryAt ≤ MAX_SAFE_INTEGER ∧ expiresAt ≤ MAX_SAFE_INTEGER ∧
      ∀ deadline ∈ reservationExpiresAt, deadline ≤ MAX_SAFE_INTEGER
  | .release _ => True
  | .complete messageId => messageId ≠ ""
  | .abandonReservation messageId => messageId ≠ ""

/-- A completion, which the run scope takes of any message. -/
def QueueClaimCall.isComplete : QueueClaimCall → Bool
  | .complete _ => true
  | _ => false

/-- The arguments that both scopes refuse, as their guards state them. -/
def QueueClaimCall.invalid : QueueClaimCall → Prop
  | .reserve messageId expiresAt _ => messageId = "" ∨ MAX_SAFE_INTEGER < expiresAt
  | .confirmPublication messageId expiresAt => messageId = "" ∨ MAX_SAFE_INTEGER < expiresAt
  | .claim messageId staleMs => messageId = "" ∨ staleMs = 0 ∨ MAX_SAFE_INTEGER < staleMs
  | .hold messageId retryAt expiresAt reservationExpiresAt =>
    messageId = "" ∨ MAX_SAFE_INTEGER < retryAt ∨ MAX_SAFE_INTEGER < expiresAt ∨
      reservationExpiresAt.any (MAX_SAFE_INTEGER < ·)
  | .release _ => False
  | .complete messageId => messageId = ""
  | .abandonReservation messageId => messageId = ""

namespace QueueClaimCall
open WorkflowRunDO
variable {now : Nat} {call : QueueClaimCall} {cell : QueueCell} {claimName : String} {store : RunStore}

@[simp] theorem armed_kept (reservation : Option QueueMessageReservation) (claim : Option InflightClaim) :
    (QueueCell.armed reservation claim).kept = { reservation, claim } := rfl

theorem filter_map_of_none {α : Type} {part : Option α} {p : α → Bool} {f : α → α}
    (absent : part.filter p = none) :
    part.map (fun value => if p value then f value else value) = part := by
  cases part with
  | none => rfl
  | some value =>
    by_cases holds : p value = true
    · simp [holds] at absent
    · simp [holds]

theorem accepted_iff : call.accepted ↔ ¬ call.invalid := by
  cases call with
  | hold messageId retryAt expiresAt reservationExpiresAt =>
    cases reservationExpiresAt <;> simp [accepted, invalid]
  | _ => simp [accepted, invalid]

/-- A claim cell answers the calls that it takes as the claim of its key does. -/
theorem cellScoped_eq (accepted : call.accepted) :
    ((call.cellScoped now cell).1, (call.cellScoped now cell).2.kept) = call.apply now cell.kept := by
  have valid := accepted_iff.mp accepted
  cases call with
  | reserve messageId expiresAt publicationPending =>
    have valid : ¬ (messageId = "" ∨ MAX_SAFE_INTEGER < expiresAt) := valid
    simp only [cellScoped, apply, reserveQueueMessage, if_neg valid, QueueCell.kept]
    cases cell.reservation.filter fun existing => now < existing.expiresAt ∧
        (existing.messageId ≠ messageId ∨ publicationPending) with
    | none => rfl
    | some existing => rfl
  | confirmPublication messageId expiresAt =>
    have valid : ¬ (messageId = "" ∨ MAX_SAFE_INTEGER < expiresAt) := valid
    simp only [cellScoped, apply, confirmQueueMessagePublication, if_neg valid, QueueCell.kept]
    split
    · rename_i other
      have unchanged := filter_map_of_none (f := fun reservation =>
        { messageId, expiresAt := max reservation.expiresAt expiresAt }) other
      simp only [decide_eq_true_eq] at unchanged
      simp only [settled, unchanged]
    · rename_i own
      obtain ⟨stored, same⟩ := Option.filter_eq_some_iff.mp own
      simp only [decide_eq_true_eq] at same
      simp only [settled, QueueCell.armed, stored, Option.map_some, if_pos same]
  | claim messageId staleMs =>
    have valid : ¬ (messageId = "" ∨ staleMs = 0 ∨ MAX_SAFE_INTEGER < staleMs) := valid
    simp only [cellScoped, apply, claimInflight, if_neg valid, QueueCell.kept, provePublication]
    cases cell.claim.filter (now < ·.expiresAt) with
    | none => rfl
    | some existing =>
      dsimp only
      split
      · rfl
      · split
        · rfl
        · rfl
  | hold messageId retryAt expiresAt reservationExpiresAt =>
    have valid : ¬ (messageId = "" ∨ MAX_SAFE_INTEGER < retryAt ∨ MAX_SAFE_INTEGER < expiresAt ∨
        reservationExpiresAt.any (MAX_SAFE_INTEGER < ·)) := valid
    simp only [cellScoped, apply, holdInflight, if_neg valid, QueueCell.kept]
    cases cell.claim.filter (·.messageId = messageId) with
    | none => rfl
    | some existing =>
      cases reservationExpiresAt with
      | none => rfl
      | some deadline => rfl
  | release messageId =>
    simp only [cellScoped, apply, releaseInflight, QueueCell.kept]
    cases stored : cell.claim with
    | none => simp [stored]
    | some existing =>
      by_cases same : existing.messageId = messageId
      · simp [Option.filter_some, same, QueueCell.armed]
      · simp [Option.filter_some, stored, same]
  | complete messageId =>
    simp only [cellScoped, apply, completeQueueMessage, if_neg (show messageId ≠ "" from valid),
      settled, armed_kept]
    rfl
  | abandonReservation messageId =>
    simp only [cellScoped, apply, abandonQueueMessageReservation,
      if_neg (show messageId ≠ "" from valid), QueueCell.kept]
    cases stored : cell.reservation with
    | none => simp [settled, stored]
    | some reservation =>
      by_cases same : reservation.messageId = messageId
      · simp [Option.filter_some, settled, same, QueueCell.armed]
      · simp [Option.filter_some, settled, stored, same]

theorem cellScoped_refused (refused : ¬ call.accepted) : call.cellScoped now cell = (.refused, cell) := by
  have invalid : call.invalid := Classical.byContradiction fun valid => refused (accepted_iff.mpr valid)
  cases call with
  | reserve => simp only [cellScoped, reserveQueueMessage, if_pos (show _ ∨ _ from invalid), answered]
  | confirmPublication =>
    simp only [cellScoped, confirmQueueMessagePublication, if_pos (show _ ∨ _ from invalid), settled]
  | claim => simp only [cellScoped, claimInflight, if_pos (show _ ∨ _ from invalid), answered]
  | hold => simp only [cellScoped, holdInflight, if_pos (show _ ∨ _ from invalid), answered]
  | release => exact absurd invalid not_false
  | complete => simp only [cellScoped, completeQueueMessage, if_pos (show _ = "" from invalid), settled]
  | abandonReservation =>
    simp only [cellScoped, abandonQueueMessageReservation, if_pos (show _ = "" from invalid), settled]

@[simp] theorem queueClaim_put (state : RunQueueClaimState) :
    (store.putQueueClaim claimName state).queueClaim claimName = state := by
  simp [RunStore.queueClaim, RunStore.putQueueClaim]

@[simp] theorem queueClaim_keep (state : RunQueueClaimState) :
    (store.keepQueueClaim claimName state).queueClaim claimName = state := by
  unfold RunStore.keepQueueClaim
  split
  · exact queueClaim_put state
  · rename_i empty
    obtain ⟨reservation, claim⟩ := state
    simp only [not_or, Bool.not_eq_true, Option.isSome_eq_false_iff, Option.isNone_iff_eq_none] at empty
    obtain ⟨rfl, rfl⟩ := empty
    simp [RunStore.queueClaim]

/-- A run that is not expired and keeps its claims, and a call that it takes. -/
def takes (now : Nat) (claimName : String) (store : RunStore) (call : QueueClaimCall) : Prop :=
  validRunQueueClaimName claimName = true ∧ (call.accepted ∨ call.isComplete = true) ∧
    store.tombstoneFrom now = none ∧ store.queueClaimScope = some "run"

theorem not_takes (incomplete : call.isComplete = false)
    (invalid : validRunQueueClaimName claimName = false ∨ call.invalid) : ¬ call.takes now claimName store := by
  rintro ⟨named, accepted | complete, -⟩
  · rcases invalid with unnamed | invalid
    · cases named.symm.trans unnamed
    · exact accepted_iff.mp accepted invalid
  · cases incomplete.symm.trans complete

theorem not_takes_of_unnamed (unnamed : validRunQueueClaimName claimName = false) :
    ¬ call.takes now claimName store := by
  rintro ⟨named, -⟩
  cases named.symm.trans unnamed

/-- A call to a run cell is refused, or answered as the claim of its key answers it. -/
def RunAnswers (now : Nat) (claimName : String) (store : RunStore) (call : QueueClaimCall)
    (result : QueueClaimAnswer × RunStore) : Prop :=
  result = (.refused, store) ∧ ¬ call.takes now claimName store ∨
    (result.1, result.2.queueClaim claimName) = call.apply now (store.queueClaim claimName)

section RunScope
variable {messageId : String}

theorem reserve_answers {expiresAt : Nat} {publicationPending : Bool} :
    RunAnswers now claimName store (.reserve messageId expiresAt publicationPending)
      (runScoped now claimName (.reserve messageId expiresAt publicationPending) store) := by
  simp only [runScoped, reserveRunQueueMessage]
  split
  · rename_i invalid
    exact .inl ⟨rfl, not_takes rfl invalid⟩
  split
  · rename_i tombstone expired
    exact .inl ⟨rfl, fun takes => by cases takes.2.2.1.symm.trans expired⟩
  split
  · rename_i scope
    exact .inl ⟨rfl, fun takes => scope takes.2.2.2⟩
  right
  simp only [apply]
  split
  · rename_i live
    simp only [live]
    rfl
  · rename_i live
    simp only [live, answered, queueClaim_put]

theorem confirm_answers {expiresAt : Nat} :
    RunAnswers now claimName store (.confirmPublication messageId expiresAt)
      (runScoped now claimName (.confirmPublication messageId expiresAt) store) := by
  simp only [runScoped, confirmRunQueueMessagePublication]
  split
  · rename_i invalid
    exact .inl ⟨rfl, not_takes rfl invalid⟩
  right
  split
  · rename_i absent
    simp [settled, apply, RunStore.queueClaim, absent]
  rename_i state stored
  have read : store.queueClaim claimName = state := by simp [RunStore.queueClaim, stored]
  simp only [apply, read]
  split
  · rename_i other
    have unchanged := filter_map_of_none (f := fun reservation =>
      { messageId, expiresAt := max reservation.expiresAt expiresAt }) other
    simp only [decide_eq_true_eq] at unchanged
    simp only [settled, unchanged, read]
  · rename_i own
    obtain ⟨reserved, same⟩ := Option.filter_eq_some_iff.mp own
    simp only [decide_eq_true_eq] at same
    simp only [settled, queueClaim_put, reserved, Option.map_some, if_pos same]

/-- A claim that only proves the publication of its message writes nothing when there is nothing to prove. -/
theorem queueClaim_proved : RunStore.queueClaim
    (if provePublication now messageId (store.queueClaim claimName) = store.queueClaim claimName then store
      else store.putQueueClaim claimName (provePublication now messageId (store.queueClaim claimName)))
        claimName =
      provePublication now messageId (store.queueClaim claimName) := by
  split
  · rename_i same
    exact same.symm
  · exact queueClaim_put _

theorem claim_answers {staleMs : Nat} : RunAnswers now claimName store (.claim messageId staleMs)
    (runScoped now claimName (.claim messageId staleMs) store) := by
  simp only [runScoped, claimRunQueueMessage]
  split
  · rename_i invalid
    exact .inl ⟨rfl, not_takes rfl invalid⟩
  split
  · rename_i expired
    exact .inl ⟨rfl, fun takes => by rw [takes.2.2.1] at expired; cases expired⟩
  right
  have kept : (provePublication now messageId (store.queueClaim claimName)).claim =
      (store.queueClaim claimName).claim := rfl
  simp only [apply, kept]
  cases (store.queueClaim claimName).claim.filter (now < ·.expiresAt) with
  | none => simp only [answered, queueClaim_put]
  | some existing =>
    dsimp only
    split
    · simp only [answered, queueClaim_proved]
    · split
      · simp only [answered, queueClaim_proved]
      · simp only [answered, queueClaim_put]

theorem hold_answers {retryAt expiresAt : Nat} {reservationExpiresAt : Option Nat} :
    RunAnswers now claimName store (.hold messageId retryAt expiresAt reservationExpiresAt)
      (runScoped now claimName (.hold messageId retryAt expiresAt reservationExpiresAt) store) := by
  simp only [runScoped, holdRunQueueMessage]
  split
  · rename_i invalid
    exact .inl ⟨rfl, not_takes rfl invalid⟩
  right
  simp only [apply]
  split
  · rename_i other
    simp only [other, answered]
  · rename_i own
    simp only [own, answered, queueClaim_put]
    cases reservationExpiresAt with
    | none => rfl
    | some deadline => rfl

theorem release_answers : RunAnswers now claimName store (.release messageId)
    (runScoped now claimName (.release messageId) store) := by
  simp only [runScoped, releaseRunQueueMessage]
  split
  · rename_i unnamed
    exact .inl ⟨rfl, not_takes_of_unnamed unnamed⟩
  right
  split
  · rename_i absent
    simp [settled, apply, RunStore.queueClaim, absent]
  rename_i state stored
  have read : store.queueClaim claimName = state := by simp [RunStore.queueClaim, stored]
  simp only [apply, read]
  obtain ⟨reservation, claim⟩ := state
  cases claim with
  | none => simp [settled, read]
  | some existing =>
    by_cases same : existing.messageId = messageId
    · simp [Option.filter_some, settled, same]
    · simp [Option.filter_some, settled, same, read]

theorem complete_answers : RunAnswers now claimName store (.complete messageId)
    (runScoped now claimName (.complete messageId) store) := by
  simp only [runScoped, completeRunQueueMessage]
  split
  · rename_i unnamed
    exact .inl ⟨rfl, not_takes_of_unnamed unnamed⟩
  right
  split
  · rename_i absent
    simp [settled, apply, RunStore.queueClaim, absent]
  · rename_i state stored
    have read : store.queueClaim claimName = state := by simp [RunStore.queueClaim, stored]
    simp only [apply, read, settled, queueClaim_keep]

theorem abandon_answers : RunAnswers now claimName store (.abandonReservation messageId)
    (runScoped now claimName (.abandonReservation messageId) store) := by
  simp only [runScoped, abandonRunQueueMessageReservation]
  split
  · rename_i invalid
    exact .inl ⟨rfl, not_takes rfl invalid⟩
  right
  split
  · rename_i absent
    simp [settled, apply, RunStore.queueClaim, absent]
  rename_i state stored
  have read : store.queueClaim claimName = state := by simp [RunStore.queueClaim, stored]
  simp only [apply, read]
  obtain ⟨reservation, claim⟩ := state
  cases reservation with
  | none => simp [settled, read]
  | some reservation =>
    by_cases same : reservation.messageId = messageId
    · simp [Option.filter_some, settled, same]
    · simp [Option.filter_some, settled, same, read]

end RunScope

/-- A run cell refuses a call, or answers it as the claim of its key does. -/
theorem runScoped_eq : call.runScoped now claimName store = (.refused, store) ∧ ¬ call.takes now claimName store ∨
    ((call.runScoped now claimName store).1, (call.runScoped now claimName store).2.queueClaim claimName) =
      call.apply now (store.queueClaim claimName) := by
  cases call with
  | reserve => exact reserve_answers
  | confirmPublication => exact confirm_answers
  | claim => exact claim_answers
  | hold => exact hold_answers
  | release => exact release_answers
  | complete => exact complete_answers
  | abandonReservation => exact abandon_answers

end QueueClaimCall

end CelldWorld
