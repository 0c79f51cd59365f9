import CelldWorld.QueueRows
import CelldWorld.QueueSites

namespace CelldWorld

variable {W : WorldContract} {world after : QueueWorld}

namespace QueueEffect
variable {α : Type} {op : QueueEffect α} {choice : QueueChoice} {answer : α}

/-- The transaction of a run cell that no party of a message makes. -/
def cellOp {α : Type} : QueueEffect α → Option (String × CellOp)
  | .runCell runId op => some (runId, op)
  | _ => none

/-- What an operation makes an isolate remember. -/
def remembers {α : Type} : QueueEffect α → Option (Nat × String × ClaimScope)
  | .rememberRunClaimScope isolate runId scope => some (isolate, runId, scope)
  | _ => none

/-- What an operation adds to the record of the reservations. -/
def reservation {α : Type} (op : QueueEffect α) (answer : α) : Option QueueReservationAnswer :=
  match op with
  | .reserve site envelope _ => match answer with
    | .ok answer => some { envelope, site, answer }
    | .error _ => none
  | _ => none

theorem exec_reservations (run : op.exec W choice world = some (answer, after)) :
    after.reservations = (op.reservation answer).toList ++ world.reservations := by
  have cells {α : Type} {claimName : String} {body : QueueCell → Except Thrown (α × QueueCell)} :
      (world.atCell claimName body).2.reservations = world.reservations := by
    unfold QueueWorld.atCell
    split <;> rfl
  have runs {α : Type} {runId : String} {body : RunStore → Except Thrown (α × RunStore)} :
      (world.atRun runId body).2.reservations = world.reservations := by
    unfold QueueWorld.atRun
    split <;> rfl
  have orphans {messageId : String} {body : Option QueuePayloadOrphanState →
    Except Thrown (Option QueuePayloadOrphanState)} :
      (world.atOrphan messageId body).2.reservations = world.reservations := by
    unfold QueueWorld.atOrphan
    split <;> rfl
  have reserved {site : QueueClaimSite} {envelope : NativeQueueEnvelope}
    {body : Except Thrown RunQueueReservation × QueueWorld}
      {answer : Except Thrown RunQueueReservation} {after : QueueWorld} {expiresAt : Nat}
      (before : body.2.reservations = world.reservations)
        (run : QueueWorld.reserved envelope site body = (answer, after)) :
      after.reservations = ((QueueEffect.reserve site envelope expiresAt).reservation answer).toList ++
        world.reservations := by
    rcases body with ⟨answer' | answer', middle⟩ <;> cases run
    · exact before
    · exact congrArg _ before
  cases op with
  | reserve site envelope expiresAt =>
    cases site with
    | cell claimName => exact reserved cells (Option.some.inj run)
    | run runId claimName => exact reserved runs (Option.some.inj run)
  | confirmPublication site | claim site | hold site | release site | complete site | abandonReservation site =>
    cases site with
    | cell claimName => exact congrArg (·.2.reservations) (Option.some.inj run) ▸ cells
    | run runId claimName => exact congrArg (·.2.reservations) (Option.some.inj run) ▸ runs
  | registerQueuePayload | unregisterQueuePayload =>
    exact congrArg (·.2.reservations) (Option.some.inj run) ▸ runs
  | scheduleQueuePayloadOrphan | cancelQueuePayloadOrphan =>
    exact congrArg (·.2.reservations) (Option.some.inj run) ▸ orphans
  | request | rememberRunClaimScope | expireQueueClaims | send | receive | ack | queuePage =>
    simp only [exec] at run
    repeat' split at run
    all_goals cases run
    all_goals rfl
  | _ =>
    cases run
    rfl

/-- Every other operation leaves all of a run alone but its claims and its registrations. -/
theorem exec_runs (run : op.exec W choice world = some (answer, after)) (other : op.cellOp = none)
    (runId : String) : ∃ queueClaims queuePayloads,
      after.runs runId = { world.runs runId with queueClaims, queuePayloads } := by
  have same : ∃ queueClaims queuePayloads,
      world.runs runId = { world.runs runId with queueClaims, queuePayloads } :=
    ⟨_, _, rfl⟩
  have claims {site : QueueClaimSite} {event : QueueClaimEvent} (named : op.event answer = some (site, event)) :
      ∃ queueClaims queuePayloads, after.runs runId = { world.runs runId with queueClaims, queuePayloads } := by
    obtain ⟨queueClaims, kept⟩ := (exec_event run named).runs runId
    exact ⟨queueClaims, _, kept⟩
  have rows {α : Type} {own : String} {body : RunStore → Except Thrown (α × RunStore)}
      (writes : ∀ answer store, body (world.runs own) = .ok (answer, store) →
        ∃ queuePayloads, store = { world.runs own with queuePayloads }) :
      ∃ queueClaims queuePayloads, (world.atRun own body).2.runs runId =
        { world.runs runId with queueClaims, queuePayloads } := by
    unfold QueueWorld.atRun
    split
    · exact same
    · rename_i answer store executed
      obtain ⟨queuePayloads, rfl⟩ := writes answer store executed
      by_cases here : runId = own
      · subst here
        exact ⟨_, queuePayloads, Function.update_self ..⟩
      · exact ⟨_, _, Function.update_of_ne here ..⟩
  cases op with
  | reserve | confirmPublication | claim | hold | release | complete | abandonReservation | expireQueueClaims =>
    exact claims rfl
  | registerQueuePayload own registration =>
    refine congrArg (·.2.runs runId) (Option.some.inj run) ▸ rows fun answer store executed => ?_
    unfold WorkflowRunDO.registerQueuePayload at executed
    repeat' split at executed
    all_goals cases executed
    · exact ⟨_, rfl⟩
    · exact ⟨_, rfl⟩
  | unregisterQueuePayload own messageId =>
    refine congrArg (·.2.runs runId) (Option.some.inj run) ▸ rows fun answer store executed => ?_
    unfold QueueWorld.unit WorkflowRunDO.unregisterQueuePayload at executed
    split at executed
    · cases executed
    · cases executed
      exact ⟨_, rfl⟩
  | runCell => cases other
  | scheduleQueuePayloadOrphan | cancelQueuePayloadOrphan =>
    refine congrArg (·.2.runs runId) (Option.some.inj run) ▸ ?_
    unfold QueueWorld.atOrphan
    split <;> exact same
  | request | rememberRunClaimScope | send | receive | ack | queuePage =>
    simp only [exec] at run
    repeat' split at run
    all_goals cases run
    all_goals exact same
  | _ =>
    cases run
    exact same

/-- An isolate remembers nothing else than what it is told. -/
theorem exec_remembered (run : op.exec W choice world = some (answer, after)) {isolate : Nat}
    {remembered : String × ClaimScope}
    (member : remembered ∈ after.runClaimScopes isolate) : remembered ∈ world.runClaimScopes isolate ∨
      op.remembers = some (isolate, remembered) := by
  have claims {site : QueueClaimSite} {event : QueueClaimEvent} (named : op.event answer = some (site, event)) :
      remembered ∈ world.runClaimScopes isolate := by
    obtain ⟨runs, claims, reservations, rfl⟩ := (exec_event run named).frame
    exact member
  cases op with
  | rememberRunClaimScope own runId scope =>
    simp only [exec] at run
    split at run
    · cases run
      exact .inl member
    · cases run
      by_cases here : isolate = own
      · subst here
        simp only [Function.update_self, List.mem_append, List.mem_singleton] at member
        rcases member with older | rfl
        · split at older
          · exact .inl (List.mem_of_mem_tail older)
          · exact .inl older
        · exact .inr rfl
      · exact .inl (by simpa only [Function.update_of_ne here] using member)
  | restart own =>
    cases run
    by_cases here : isolate = own
    · subst here
      simp at member
    · exact .inl (by simpa only [Function.update_of_ne here] using member)
  | reserve | confirmPublication | claim | hold | release | complete | abandonReservation | expireQueueClaims =>
    exact .inl (claims rfl)
  | registerQueuePayload | unregisterQueuePayload =>
    obtain rfl := congrArg (·.2) (Option.some.inj run)
    unfold QueueWorld.atRun at member
    split at member <;> exact .inl member
  | scheduleQueuePayloadOrphan | cancelQueuePayloadOrphan =>
    obtain rfl := congrArg (·.2) (Option.some.inj run)
    unfold QueueWorld.atOrphan at member
    split at member <;> exact .inl member
  | request | send | receive | ack | queuePage =>
    simp only [exec] at run
    repeat' split at run
    all_goals cases run
    all_goals exact .inl member
  | _ =>
    cases run
    exact .inl member

theorem exec_now (run : op.exec W choice world = some (answer, after)) : world.now ≤ after.now := by
  have claims {site : QueueClaimSite} {event : QueueClaimEvent} (named : op.event answer = some (site, event)) :
      world.now ≤ after.now := by
    obtain ⟨runs, claims, reservations, rfl⟩ := (exec_event run named).frame
    exact Nat.le_refl _
  cases op with
  | reserve | confirmPublication | claim | hold | release | complete | abandonReservation | expireQueueClaims =>
    exact claims rfl
  | registerQueuePayload | unregisterQueuePayload =>
    refine congrArg (·.2.now) (Option.some.inj run) ▸ ?_
    unfold QueueWorld.atRun
    split <;> exact Nat.le_refl _
  | scheduleQueuePayloadOrphan | cancelQueuePayloadOrphan =>
    refine congrArg (·.2.now) (Option.some.inj run) ▸ ?_
    unfold QueueWorld.atOrphan
    split <;> exact Nat.le_refl _
  | request | rememberRunClaimScope | send | receive | ack | queuePage =>
    simp only [exec] at run
    repeat' split at run
    all_goals cases run
    all_goals exact Nat.le_refl _
  | clock later =>
    cases run
    exact Nat.le_max_left _ _
  | _ =>
    cases run
    exact Nat.le_refl _

end QueueEffect

end CelldWorld
