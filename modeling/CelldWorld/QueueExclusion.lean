import CelldWorld.QueueRefinement

namespace CelldWorld

open QueueClaimCall

variable {now : Nat} {event : QueueClaimEvent} {claimName : String}

theorem filter_lapsed {α : Type} {deadline : α → Nat} (part : Option α) :
    Lapsed (fun value => deadline value ≤ now) part (part.filter fun value => now < deadline value) := by
  cases part with
  | none => exact .inl rfl
  | some value =>
    by_cases live : now < deadline value
    · exact .inl (Option.filter_some_pos (by simpa using live))
    · refine .inr ⟨Option.filter_some_neg (by simpa using live), fun stored found => ?_⟩
      rw [← Option.some.inj found]
      exact Nat.le_of_not_lt live

/-- A claim cell keeps one claim. -/
theorem QueueCellStep.refines {before after : QueueCell} (step : QueueCellStep now event before after) :
    ClaimStep now event before.kept after.kept := by
  cases step with
  | @call call answer _ _ applied =>
    by_cases accepted : call.accepted
    · have same := @cellScoped_eq now call before accepted
      rw [applied] at same
      exact .call same.symm
    · rw [cellScoped_refused accepted] at applied
      cases applied
      exact .refused
  | alarm => exact .lapse (filter_lapsed _) (filter_lapsed _)

/-- A run cell keeps a claim for each of its keys. -/
theorem RunClaimStep.refines {before after : RunStore} (step : RunClaimStep claimName now event before after) :
    ClaimStep now event (before.queueClaim claimName) (after.queueClaim claimName) := by
  cases step with
  | @call call answer _ _ applied =>
    rcases @runScoped_eq now call claimName before with ⟨refused, -⟩ | same
    · rw [refused] at applied
      cases applied
      exact .refused
    · rw [applied] at same
      exact .call same.symm
  | other same =>
    have unchanged : after.queueClaim claimName = before.queueClaim claimName := by
      unfold RunStore.queueClaim
      rw [same]
    exact .lapse (.inl (congrArg _ unchanged)) (.inl (congrArg _ unchanged))

/-- Both scopes keep what a claim promises to the messages of its key: from its grant on a
message is alone, a hold never shortens its claim or reservation, and after its completion
its late calls leave nothing of it in the claim. -/
theorem queueClaims_sound : QueueClaimSound QueueCellStep QueueCell.kept ∧
    ∀ claimName, QueueClaimSound (RunClaimStep claimName) (RunStore.queueClaim · claimName) :=
  ⟨.of_refines QueueCellStep.refines, fun _ => .of_refines RunClaimStep.refines⟩

/-- A message is granted its claim, held, refused before its retry and granted again from
it on, while every other message waits. -/
theorem queueClaims_sound_retried : ∃ granted held regranted : QueueCell,
    QueueCellStep 0 (.call (.claim "message" 900000) (.claimed true none)) {} granted ∧
    QueueCellStep 10 (.call (.hold "message" 5000 905000 none) (.held true)) granted held ∧
    QueueCellStep 4999 (.call (.claim "message" 900000) (.claimed false (some 5000))) held held ∧
    QueueCellStep 5000 (.call (.claim "message" 900000) (.claimed true none)) held regranted ∧
    ∀ asked other staleMs retryAt after, 10 ≤ asked → asked < 905000 →
      QueueCellStep asked (.call (.claim other staleMs) (.claimed true retryAt)) held after →
        other = "message" ∧ 5000 ≤ asked := by
  have grant : QueueCellStep 0 (.call (.claim "message" 900000) (.claimed true none)) {}
      (.armed none (some ⟨"message", 900000, none⟩)) := .call rfl
  have hold : QueueCellStep 10 (.call (.hold "message" 5000 905000 none) (.held true))
      (.armed none (some ⟨"message", 900000, none⟩)) (.armed none (some ⟨"message", 905000, some 5000⟩)) :=
        .call rfl
  refine ⟨_, _, _, grant, hold, .call rfl, .call rfl, fun asked other staleMs retryAt after late live again => ?_⟩
  obtain ⟨same, retry, waits, passed⟩ := queueClaims_sound.1.exclusive grant
    (.next .start (Nat.zero_le 10) hold) (by simp [QueueClaimEvent.ends]) late again live
  exact ⟨same, Option.some.inj waits ▸ passed⟩

end CelldWorld
