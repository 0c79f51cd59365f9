import CelldWorld.QueueWorld

namespace CelldWorld

open QueueClaimCall

/-- Only the claim of one key changed. -/
def ClaimsOnly (claimName : String) (before after : RunStore) : Prop :=
  ∃ queueClaims, after = { before with queueClaims } ∧
    ∀ other, other ≠ claimName → queueClaims[other]? = before.queueClaims[other]?

namespace ClaimsOnly
variable {claimName : String} {store : RunStore}

theorem refl : ClaimsOnly claimName store store := ⟨_, rfl, fun _ _ => rfl⟩

theorem put {state : RunQueueClaimState} : ClaimsOnly claimName store (store.putQueueClaim claimName state) :=
  ⟨_, rfl, fun other different => by simp [Std.ExtTreeMap.getElem?_insert, different.symm]⟩

theorem keep {state : RunQueueClaimState} :
    ClaimsOnly claimName store (store.keepQueueClaim claimName state) := by
  unfold RunStore.keepQueueClaim
  split
  · exact put
  · exact ⟨_, rfl, fun other different => by simp [Std.ExtTreeMap.getElem?_erase, different.symm]⟩

theorem answered {α : Type} {answer : α → QueueClaimAnswer} {body : Except Thrown (α × RunStore)}
    (only : ∀ result after, body = .ok (result, after) → ClaimsOnly claimName store after) :
    ClaimsOnly claimName store (QueueClaimCall.answered store answer body).2 := by
  cases body with
  | error thrown => exact refl
  | ok result => exact only result.1 result.2 rfl

theorem settled {body : Except Thrown RunStore}
    (only : ∀ after, body = .ok after → ClaimsOnly claimName store after) :
    ClaimsOnly claimName store (QueueClaimCall.settled store body).2 := by
  cases body with
  | error thrown => exact refl
  | ok after => exact only after rfl

end ClaimsOnly

/-- A call to the claim of a key touches no other claim of the run. -/
theorem QueueClaimCall.runScoped_only {now : Nat} {claimName : String} {store : RunStore}
    (call : QueueClaimCall) :
    ClaimsOnly claimName store (call.runScoped now claimName store).2 := by
  cases call with
  | reserve messageId expiresAt pending =>
    refine .answered fun result after run => ?_
    unfold WorkflowRunDO.reserveRunQueueMessage at run
    split at run
    · cases run
    split at run
    · cases run
      exact .refl
    split at run
    · cases run
      exact .refl
    simp only at run
    split at run
    · cases run
      exact .refl
    · cases run
      exact .put
  | confirmPublication messageId expiresAt =>
    refine .settled fun after run => ?_
    unfold WorkflowRunDO.confirmRunQueueMessagePublication at run
    repeat' split at run
    all_goals cases run
    · exact .refl
    · exact .refl
    · exact .put
  | claim messageId staleMs =>
    refine .answered fun result after run => ?_
    unfold WorkflowRunDO.claimRunQueueMessage at run
    simp only at run
    repeat' split at run
    all_goals cases run
    all_goals first | exact .refl | exact .put
  | hold messageId retryAt expiresAt reservationExpiresAt =>
    refine .answered fun result after run => ?_
    unfold WorkflowRunDO.holdRunQueueMessage at run
    split at run
    · cases run
    simp only at run
    split at run
    · cases run
      exact .refl
    · cases run
      exact .put
  | release messageId =>
    refine .settled fun after run => ?_
    unfold WorkflowRunDO.releaseRunQueueMessage at run
    repeat' split at run
    all_goals cases run
    · exact .refl
    · exact .keep
    · exact .refl
  | complete messageId =>
    refine .settled fun after run => ?_
    unfold WorkflowRunDO.completeRunQueueMessage at run
    repeat' split at run
    all_goals cases run
    · exact .refl
    · exact .keep
  | abandonReservation messageId =>
    refine .settled fun after run => ?_
    unfold WorkflowRunDO.abandonRunQueueMessageReservation at run
    repeat' split at run
    all_goals cases run
    · exact .refl
    · exact .keep
    · exact .refl

namespace QueueEffect

/-- The answer of a claim that returned, and a refusal for one that threw. -/
def answerOf {α : Type} (answer : α → QueueClaimAnswer) : Except Thrown α → QueueClaimAnswer
  | .error _ => .refused
  | .ok result => answer result

/-- What an operation is to the claim at a site. -/
def event {α : Type} (op : QueueEffect α) (answer : α) : Option (QueueClaimSite × QueueClaimEvent) :=
  match op with
  | .reserve site envelope expiresAt => some (site, .call (.reserve envelope.messageId expiresAt true)
      (answerOf (fun reservation => match reservation with
        | .run admitted existing pending => .reserved admitted existing pending
        | .cell => .refused
        | .refused _ => .refused) answer))
  | .confirmPublication site messageId expiresAt =>
    some (site, .call (.confirmPublication messageId expiresAt) (answerOf (fun _ => .done) answer))
  | .claim site messageId staleMs => some (site, .call (.claim messageId staleMs)
      (answerOf (fun claim => match claim with
        | .answered claimed retryAt => .claimed claimed retryAt
        | .expired => .refused) answer))
  | .hold site messageId retryAt expiresAt reservationExpiresAt =>
    some (site, .call (.hold messageId retryAt expiresAt reservationExpiresAt) (answerOf .held answer))
  | .release site messageId => some (site, .call (.release messageId) (answerOf (fun _ => .done) answer))
  | .complete site messageId => some (site, .call (.complete messageId) (answerOf (fun _ => .done) answer))
  | .abandonReservation site messageId =>
    some (site, .call (.abandonReservation messageId) (answerOf (fun _ => .done) answer))
  | .expireQueueClaims claimName => some (.cell claimName, .lapse)
  | _ => none

end QueueEffect

/-- One event of the claim at a site, which leaves everything else alone. -/
structure ClaimsAt (site : QueueClaimSite) (event : QueueClaimEvent) (world after : QueueWorld) : Prop where
  step : ClaimStep world.now event (world.kept site) (after.kept site)
  others : ∀ other, other ≠ site → after.kept other = world.kept other
  frame : ∃ runs claims reservations, after = { world with runs, claims, reservations }
  runs : ∀ runId, ∃ queueClaims, after.runs runId = { world.runs runId with queueClaims }

namespace ClaimsAt
variable {world : QueueWorld} {claimName runId : String} {call : QueueClaimCall} {answer : QueueClaimAnswer}

theorem cell {event : QueueClaimEvent} {cell : QueueCell}
    (step : QueueCellStep world.now event (world.claims claimName) cell) :
    ClaimsAt (.cell claimName) event world
      { world with claims := Function.update world.claims claimName cell } where
  step := by
    have kept := step.refines
    simpa [QueueWorld.kept] using kept
  others other different := by
    cases other with
    | cell name =>
      have named : name ≠ claimName := fun same => different (by rw [same])
      simp [QueueWorld.kept, Function.update_of_ne named]
    | run => rfl
  frame := ⟨world.runs, _, world.reservations, rfl⟩
  runs runId := ⟨_, rfl⟩

theorem run {store : RunStore}
    (step : RunClaimStep claimName world.now (.call call answer) (world.runs runId) store)
    (only : ClaimsOnly claimName (world.runs runId) store) :
    ClaimsAt (.run runId claimName) (.call call answer) world
      { world with runs := Function.update world.runs runId store } where
  step := by
    have kept := step.refines
    simpa [QueueWorld.kept] using kept
  others other different := by
    cases other with
    | cell => rfl
    | run id name =>
      by_cases same : id = runId
      · obtain ⟨queueClaims, rfl, others⟩ := only
        subst same
        have named : name ≠ claimName := fun same => different (by rw [same])
        simp [QueueWorld.kept, RunStore.queueClaim, others name named]
      · simp [QueueWorld.kept, Function.update_of_ne same]
  frame := ⟨_, world.claims, world.reservations, rfl⟩
  runs id := by
    by_cases same : id = runId
    · obtain ⟨queueClaims, rfl, -⟩ := only
      exact ⟨queueClaims, by simp [same]⟩
    · exact ⟨(world.runs id).queueClaims, by simp [Function.update_of_ne same]⟩

end ClaimsAt

namespace ClaimsAt
variable {α : Type} {world after : QueueWorld} {claimName runId : String} {call : QueueClaimCall}
    {answer : Except Thrown α}
  {reply : α → QueueClaimAnswer}

/-- A transaction of a claim cell that a call stands for. -/
theorem of_cell {body : QueueCell → Except Thrown (α × QueueCell)}
    (run : world.atCell claimName body = (answer, after))
    (same : call.cellScoped world.now (world.claims claimName) =
      answered (world.claims claimName) reply (body (world.claims claimName))) :
    ClaimsAt (.cell claimName) (.call call (QueueEffect.answerOf reply answer)) world after := by
  unfold QueueWorld.atCell at run
  split at run
  · rename_i error executed
    cases run
    rw [executed] at same
    have stays : ClaimsAt (.cell claimName) (.call call _) world _ := cell (.call same)
    rwa [Function.update_eq_self] at stays
  · rename_i result store executed
    cases run
    rw [executed] at same
    exact cell (.call same)

/-- A transaction of a run cell that a call stands for. -/
theorem of_run {body : RunStore → Except Thrown (α × RunStore)} (run : world.atRun runId body = (answer, after))
    (same : call.runScoped world.now claimName (world.runs runId) =
      answered (world.runs runId) reply (body (world.runs runId))) :
    ClaimsAt (.run runId claimName) (.call call (QueueEffect.answerOf reply answer)) world after := by
  have only := @runScoped_only world.now claimName (world.runs runId) call
  unfold QueueWorld.atRun at run
  split at run
  · rename_i error executed
    cases run
    rw [executed] at same
    rw [same] at only
    have stays : ClaimsAt (.run runId claimName) (.call call _) world _ := .run (.call same) only
    rwa [Function.update_eq_self] at stays
  · rename_i result store executed
    cases run
    rw [executed] at same
    rw [same] at only
    exact ClaimsAt.run (.call same) only

/-- The record of an answer is no part of the claims. -/
theorem reserved {envelope : NativeQueueEnvelope} {site : QueueClaimSite} {event : QueueClaimEvent}
    {middle : QueueWorld}
    {answer : Except Thrown RunQueueReservation} (held : ClaimsAt site event world middle) :
    ClaimsAt site event world (QueueWorld.reserved envelope site (answer, middle)).2 := by
  cases answer with
  | error => exact held
  | ok answer =>
    obtain ⟨runs, claims, reservations, rfl⟩ := held.frame
    exact ⟨held.step, held.others, ⟨runs, claims, _, rfl⟩, held.runs⟩

theorem settled_eq {σ : Type} {store : σ} {body : σ → Except Thrown σ} :
    settled store (body store) = answered store (fun _ => .done) (QueueWorld.unit body store) := by
  unfold QueueWorld.unit
  cases body store <;> rfl

end ClaimsAt

namespace QueueEffect
variable {α : Type} {W : WorldContract} {op : QueueEffect α} {choice : QueueChoice}
    {world after : QueueWorld} {answer : α}
  {site : QueueClaimSite} {event : QueueClaimEvent}

/-- An operation on a claim is an event of the claim at its site. -/
theorem exec_event (run : op.exec W choice world = some (answer, after))
    (named : op.event answer = some (site, event)) :
    ClaimsAt site event world after := by
  cases op with
  | reserve site' envelope expiresAt =>
    cases named
    have recorded (body : Except Thrown RunQueueReservation × QueueWorld)
        (run : QueueWorld.reserved envelope site body = (answer, after)) : body.1 = answer := by
      rcases body with ⟨answer' | answer', middle⟩ <;> exact congrArg (·.1) run
    cases site with
    | cell claimName =>
      have run := Option.some.inj run
      generalize call : world.atCell claimName _ = body at run
      obtain ⟨answer', middle⟩ := body
      obtain rfl := recorded _ run
      obtain rfl := congrArg (·.2) run
      refine ClaimsAt.reserved (.of_cell call ?_)
      simp only [cellScoped]
      cases WorkflowRunDO.reserveQueueMessage world.now envelope.messageId expiresAt true
        (world.claims claimName) <;> rfl
    | run runId claimName =>
      have run := Option.some.inj run
      generalize call : world.atRun runId _ = body at run
      obtain ⟨answer', middle⟩ := body
      obtain rfl := recorded _ run
      obtain rfl := congrArg (·.2) run
      exact ClaimsAt.reserved (.of_run call rfl)
  | confirmPublication site' messageId expiresAt =>
    cases named
    cases site with
    | cell claimName => exact .of_cell (Option.some.inj run) ClaimsAt.settled_eq
    | run runId claimName => exact .of_run (Option.some.inj run) ClaimsAt.settled_eq
  | claim site' messageId staleMs =>
    cases named
    cases site with
    | cell claimName =>
      refine .of_cell (Option.some.inj run) ?_
      simp only [cellScoped]
      cases WorkflowRunDO.claimInflight world.now messageId staleMs (world.claims claimName) <;> rfl
    | run runId claimName => exact .of_run (Option.some.inj run) rfl
  | hold site' messageId retryAt expiresAt reservationExpiresAt =>
    cases named
    cases site with
    | cell claimName => exact .of_cell (Option.some.inj run) rfl
    | run runId claimName => exact .of_run (Option.some.inj run) rfl
  | release site' messageId =>
    cases named
    cases site with
    | cell claimName => exact .of_cell (Option.some.inj run) rfl
    | run runId claimName => exact .of_run (Option.some.inj run) ClaimsAt.settled_eq
  | complete site' messageId =>
    cases named
    cases site with
    | cell claimName => exact .of_cell (Option.some.inj run) ClaimsAt.settled_eq
    | run runId claimName => exact .of_run (Option.some.inj run) ClaimsAt.settled_eq
  | abandonReservation site' messageId =>
    cases named
    cases site with
    | cell claimName => exact .of_cell (Option.some.inj run) ClaimsAt.settled_eq
    | run runId claimName => exact .of_run (Option.some.inj run) ClaimsAt.settled_eq
  | expireQueueClaims claimName =>
    cases named
    simp only [exec] at run
    split at run
    · cases run
    rename_i due armed
    obtain ⟨armed, passed⟩ := Option.filter_eq_some_iff.mp armed
    cases run
    exact .cell (.alarm armed (by simpa using passed))
  | _ => cases named

end QueueEffect

end CelldWorld
