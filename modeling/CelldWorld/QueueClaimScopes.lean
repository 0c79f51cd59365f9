import CelldWorld.QueueFrames

namespace CelldWorld

open Interleaving QueueProgram

namespace QueueClaimSite

def scope : QueueClaimSite → ClaimScope
  | .cell _ => .cell
  | .run .. => .run

/-- The run whose cell keeps the claim. -/
def runId : QueueClaimSite → Option String
  | .cell _ => none
  | .run runId _ => some runId

/-- The claim of the message's key lies here, in one of the two scopes. -/
def IsOf (site : QueueClaimSite) (envelope : NativeQueueEnvelope) : Prop :=
  ∃ key, truthy envelope.idempotencyKey = some key ∧ (site = .cell (queueClaimName envelope.queueName key) ∨
    ∃ runId, truthy envelope.runId = some runId ∧ site = .run runId (queueClaimName envelope.queueName key))

end QueueClaimSite

namespace QueueWorld
variable (world : QueueWorld)

/-- The cell of the run has answered an enqueue that the claim is in a claim cell. -/
def sentToCells (runId : String) : Bool :=
  world.reservations.any fun reserved => reserved.answer = .cell ∧ reserved.site.runId = some runId

/-- An enqueue of the message was admitted to the claim at the site. -/
def Admitted (envelope : NativeQueueEnvelope) (site : QueueClaimSite) : Prop :=
  ∃ messageId pending, ⟨envelope, site, .run true messageId pending⟩ ∈ world.reservations

/-- All enqueues of a run, a queue and an idempotency key that were admitted have one
claim, so no two unfinished ones have claims in different scopes. -/
structure OneClaimScope (runId queueName idempotencyKey : String) : Prop where
  claim : ∃ site : QueueClaimSite, ∀ envelope own, world.Admitted envelope own → envelope.runId = some runId →
    envelope.queueName = queueName → envelope.idempotencyKey = some idempotencyKey → own = site
  unfinished : ∀ first second one two, world.Admitted first one → world.Admitted second two →
    first.runId = some runId → first.queueName = queueName → first.idempotencyKey = some idempotencyKey →
    second.runId = some runId → second.queueName = queueName → second.idempotencyKey = some idempotencyKey →
    (world.kept one).names first.messageId → (world.kept two).names second.messageId → one.scope = two.scope

end QueueWorld

/-- No run is created after its cell has sent an enqueue to a claim cell. -/
def createdFirst (world : QueueWorld) : {β : Type} → QueueEffect β → Bool
  | _, .runCell runId op => !(world.sentToCells runId && (world.runs runId).run.isNone && op.createsRun)
  | _, _ => true

variable {W : WorldContract} {C : QueueContract} {env : QueueWorkerEnv} {world after : QueueWorld}

theorem QueueWorld.sentToCells_iff {runId : String} : world.sentToCells runId = true ↔
    ∃ envelope claimName, (⟨envelope, .run runId claimName, .cell⟩ : QueueReservationAnswer) ∈
      world.reservations := by
  simp only [sentToCells, List.any_eq_true, decide_eq_true_eq]
  constructor
  · rintro ⟨⟨envelope, site, answer⟩, member, rfl, named⟩
    cases site with
    | cell => cases named
    | run id claimName =>
      cases named
      exact ⟨envelope, claimName, member⟩
  · rintro ⟨envelope, claimName, member⟩
    exact ⟨_, member, rfl, rfl⟩

/-- What a reservation finds out about the run. -/
inductive ReservationAt (world : QueueWorld) : QueueReservationAnswer → Prop
  | cell {envelope : NativeQueueEnvelope} {claimName messageId : String} {admitted pending : Bool} :
      ReservationAt world ⟨envelope, .cell claimName, .run admitted messageId pending⟩
  | sent {envelope : NativeQueueEnvelope} {runId claimName : String} :
      ((world.runs runId).tombstoneFrom world.now) = none → (world.runs runId).queueClaimScope ≠ some "run" →
      ReservationAt world ⟨envelope, .run runId claimName, .cell⟩
  | run {envelope : NativeQueueEnvelope} {runId claimName messageId : String} {admitted pending : Bool} :
      ((world.runs runId).tombstoneFrom world.now) = none → (world.runs runId).queueClaimScope = some "run" →
      ReservationAt world ⟨envelope, .run runId claimName, .run admitted messageId pending⟩
  | refused {envelope : NativeQueueEnvelope} {runId claimName message : String} :
      ReservationAt world ⟨envelope, .run runId claimName, .refused message⟩

theorem QueueEffect.exec_reserve {site : QueueClaimSite} {envelope : NativeQueueEnvelope} {expiresAt : Nat}
    {choice : QueueChoice} {answer : RunQueueReservation}
    (run : (reserve site envelope expiresAt).exec W choice world = some (.ok answer, after)) :
    ReservationAt world ⟨envelope, site, answer⟩ := by
  have answered {body : Except Thrown RunQueueReservation × QueueWorld}
      (run : QueueWorld.reserved envelope site body = (.ok answer, after)) : body.1 = .ok answer := by
    rcases body with ⟨error | answer', middle⟩ <;> cases run
    rfl
  cases site with
  | cell claimName =>
    have answered := answered (Option.some.inj run)
    unfold QueueWorld.atCell at answered
    split at answered
    · cases answered
    · rename_i executed
      cases reserves : WorkflowRunDO.reserveQueueMessage world.now envelope.messageId expiresAt true
        (world.claims claimName) with
      | error => simp [reserves, Except.map] at executed
      | ok result =>
        simp only [reserves, Except.map] at executed
        cases executed
        cases answered
        exact .cell
  | run runId claimName =>
    have answered := answered (Option.some.inj run)
    unfold QueueWorld.atRun at answered
    split at answered
    · cases answered
    · rename_i executed
      cases answered
      unfold WorkflowRunDO.reserveRunQueueMessage at executed
      split at executed
      · cases executed
      split at executed
      · cases executed
        exact .refused
      rename_i unexpired
      split at executed
      · rename_i unmarked
        cases executed
        exact .sent unexpired unmarked
      · rename_i marked
        have marked : (world.runs runId).queueClaimScope = some "run" := by simpa using marked
        simp only at executed
        split at executed <;> cases executed <;> exact .run unexpired marked

/-- Why all enqueues of a key that were admitted have one claim. -/
structure ScopesKept (world : QueueWorld) : Prop where
  sent : ∀ runId, world.sentToCells runId = true → (world.runs runId).queueClaimScope ≠ some "run"
  named : ∀ envelope site, world.Admitted envelope site → site.IsOf envelope
  cells : ∀ envelope claimName, world.Admitted envelope (.cell claimName) → ∀ runId,
    truthy envelope.runId = some runId →
    world.sentToCells runId = true
  runs : ∀ envelope runId claimName, world.Admitted envelope (.run runId claimName) →
    world.sentToCells runId = false ∧
    ((world.runs runId).queueClaimScope = some "run" ∨ ((world.runs runId).tombstoneFrom world.now).isSome)
  remembered : ∀ isolate runId, (runId, .cell) ∈ world.runClaimScopes isolate → world.sentToCells runId = true

/-- What the router knows when it performs an operation. -/
def QueueEffect.KeepsScope {α : Type} (op : QueueEffect α) (world : QueueWorld) : Prop :=
  match op with
  | .rememberRunClaimScope _ runId .cell => world.sentToCells runId = true
  | .reserve site envelope _ => site.IsOf envelope ∧
      (site.scope = .cell → ∀ runId, truthy envelope.runId = some runId → world.sentToCells runId = true)
  | .runCell _ op => op.isQueue = false
  | _ => True

/-- What a run cell is found to hold of a claim scope stays so. -/
structure ScopeSteps (world after : QueueWorld) : Prop where
  set : ∀ runId, (after.runs runId).queueClaimScope = some "run" →
    (world.runs runId).queueClaimScope = some "run" ∨ world.sentToCells runId = false
  stays : ∀ runId, (world.runs runId).queueClaimScope = some "run" ∨
    ((world.runs runId).tombstoneFrom world.now).isSome →
    (after.runs runId).queueClaimScope = some "run" ∨ ((after.runs runId).tombstoneFrom after.now).isSome

theorem RunStore.tombstoneFrom_later {now later : Nat} {store : RunStore} (tick : now ≤ later)
    (expired : (store.tombstoneFrom now).isSome) : (store.tombstoneFrom later).isSome := by
  rw [tombstoneFrom_isSome_iff] at expired ⊢
  exact expired.imp_right fun ⟨record, stored, due⟩ =>
    ⟨record, stored, fun retained => Nat.le_trans (due retained) tick⟩

namespace QueueEffect
variable {α : Type} {op : QueueEffect α} {choice : QueueChoice} {answer : α}

theorem exec_scopes (run : op.exec W choice world = some (answer, after)) (keeps : op.KeepsScope world)
    (admitted : createdFirst world op = true) : ScopeSteps world after := by
  have tick := exec_now run
  cases cell : op.cellOp with
  | none =>
    refine ⟨fun runId marked => .inl ?_, fun runId held => ?_⟩
    · obtain ⟨queueClaims, queuePayloads, kept⟩ := exec_runs run cell runId
      rwa [kept] at marked
    · obtain ⟨queueClaims, queuePayloads, kept⟩ := exec_runs run cell runId
      rw [kept]
      exact held.imp_right fun expired => (RunStore.tombstoneFrom_later tick expired :)
  | some transaction =>
    cases op with
    | runCell own cellOp =>
      cases run
      have rows := cellOp.queueRowStep W own world.now (world.runs own) keeps
      have records := cellOp.recordStep W own world.now (world.runs own)
      simp only [createdFirst, Bool.not_eq_true', Bool.and_eq_false_iff] at admitted
      refine ⟨fun runId marked => ?_, fun runId held => ?_⟩
      · by_cases here : runId = own
        · subst here
          simp only [Function.update_self] at marked
          cases rows with
          | kept same => exact .inl (same.scope ▸ marked)
          | created absent creates unexpired scope claims payloads =>
            simp only [absent, creates, Option.isNone_none, Bool.true_eq_false, or_false] at admitted
            exact .inr admitted
          | swept expired less =>
            rcases less.scope with same | gone
            · exact .inl (same ▸ marked)
            · cases gone.symm.trans marked
        · exact .inl (by simpa only [Function.update_of_ne here] using marked)
      · by_cases here : runId = own
        · subst here
          simp only [Function.update_self]
          rcases held with marked | expired
          · cases rows with
            | kept same => exact .inl (same.scope.trans marked)
            | created absent creates unexpired scope claims payloads => exact .inl scope
            | swept expired less => exact .inr expired
          · exact .inr (records.expired (Nat.le_refl _) expired)
        · simpa only [Function.update_of_ne here] using held
    | _ => cases cell

end QueueEffect

namespace ScopesKept
variable {α : Type} {op : QueueEffect α} {choice : QueueChoice} {answer : α}

theorem sentToCells_stays (run : op.exec W choice world = some (answer, after)) {runId : String}
    (sent : world.sentToCells runId = true) : after.sentToCells runId = true := by
  obtain ⟨envelope, claimName, member⟩ := QueueWorld.sentToCells_iff.mp sent
  rw [QueueWorld.sentToCells_iff, QueueEffect.exec_reservations run]
  exact ⟨envelope, claimName, List.mem_append_right _ member⟩

/-- A new entry of the record of reservations. -/
theorem added (run : op.exec W choice world = some (answer, after)) (keeps : op.KeepsScope world)
    {entry : QueueReservationAnswer} (member : entry ∈ after.reservations) : entry ∈ world.reservations ∨
      op.cellOp = none ∧ ReservationAt world entry ∧ entry.site.IsOf entry.envelope ∧
        (entry.site.scope = .cell → ∀ runId, truthy entry.envelope.runId = some runId →
          world.sentToCells runId = true) := by
  rw [QueueEffect.exec_reservations run] at member
  rcases List.mem_append.mp member with new | old
  · cases op with
    | reserve site envelope expiresAt =>
      cases answer with
      | error error => cases new
      | ok answer =>
        obtain rfl := List.mem_singleton.mp new
        exact .inr ⟨rfl, QueueEffect.exec_reserve run, keeps⟩
    | _ => cases new
  · exact .inl old

theorem next (kept : ScopesKept world) (run : op.exec W choice world = some (answer, after))
    (keeps : op.KeepsScope world)
    (admitted : createdFirst world op = true) : ScopesKept after := by
  have steps := QueueEffect.exec_scopes run keeps admitted
  have stays {runId : String} (sent : world.sentToCells runId = true) := sentToCells_stays run sent
  -- A run that has just been sent to the claim cells keeps no claims in its own cell.
  have sent {runId : String} (sent : after.sentToCells runId = true) : world.sentToCells runId = true ∨
      (world.runs runId).queueClaimScope ≠ some "run" ∧ (world.runs runId).tombstoneFrom world.now = none ∧
        (after.runs runId).queueClaimScope = (world.runs runId).queueClaimScope := by
    obtain ⟨envelope, claimName, member⟩ := QueueWorld.sentToCells_iff.mp sent
    rcases added run keeps member with old | ⟨other, found, -⟩
    · exact .inl (QueueWorld.sentToCells_iff.mpr ⟨envelope, claimName, old⟩)
    · obtain ⟨queueClaims, queuePayloads, same⟩ := QueueEffect.exec_runs run other runId
      cases found with
      | sent unexpired unmarked => exact .inr ⟨unmarked, unexpired, by rw [same]⟩
  refine ⟨fun runId now_ marked => ?_, fun envelope site => ?_, fun envelope claimName => ?_,
    fun envelope runId claimName => ?_,
    fun isolate runId member => ?_⟩
  · rcases sent now_ with before | ⟨unmarked, -, same⟩
    · rcases steps.set runId marked with already | free
      · exact kept.sent runId before already
      · exact absurd before (by simp [free])
    · exact unmarked (same ▸ marked)
  · rintro ⟨messageId, pending, member⟩
    rcases added run keeps member with old | ⟨-, -, named, -⟩
    · exact kept.named envelope site ⟨messageId, pending, old⟩
    · exact named
  · rintro ⟨messageId, pending, member⟩ runId ofRun
    rcases added run keeps member with old | ⟨-, -, -, known⟩
    · exact stays (kept.cells envelope claimName ⟨messageId, pending, old⟩ runId ofRun)
    · exact stays (known rfl runId ofRun)
  · rintro ⟨messageId, pending, member⟩
    have found : world.sentToCells runId = false ∧ ((world.runs runId).queueClaimScope = some "run" ∨
        ((world.runs runId).tombstoneFrom world.now).isSome) := by
      rcases added run keeps member with old | ⟨-, found, -⟩
      · exact kept.runs envelope runId claimName ⟨messageId, pending, old⟩
      · cases found with
        | run unexpired marked =>
          refine ⟨Bool.eq_false_iff.mpr fun before => ?_, .inl marked⟩
          exact kept.sent runId before marked
    refine ⟨Bool.eq_false_iff.mpr fun now_ => ?_, steps.stays runId found.2⟩
    rcases sent now_ with before | ⟨unmarked, unexpired, -⟩
    · exact absurd before (by simp [found.1])
    · rcases found.2 with marked | expired
      · exact unmarked marked
      · simp [unexpired] at expired
  · rcases QueueEffect.exec_remembered run member with old | told
    · exact stays (kept.remembered isolate runId old)
    · cases op with
      | rememberRunClaimScope own id scope =>
        cases told
        exact stays keeps
      | _ => cases told

end ScopesKept

section Fleet
variable (W C)

/-- All parties keep every run in one claim scope. -/
def scopeProtocol : Protocol (queueFleet C W createdFirst) where
  Fact := String
  Right := Empty
  inv world _ := ScopesKept world
  holds world runId := world.sentToCells runId = true
  needs world _ _ op := op.KeepsScope world
  leaves _ _ mine := mine
  keeps inv apart needs admits run :=
    ⟨inv.next run needs admits, apart, fun _ sent => ScopesKept.sentToCells_stays run sent⟩
  drops inv _ := inv

/-- An operation that the router may perform whatever it knows. -/
def QueueEffect.Unscoped {α : Type} (op : QueueEffect α) : Prop := ∀ world, op.KeepsScope world

variable {W C} {request : QueueRequest} {isolate : Nat} {mine : Set (scopeProtocol W C).Right}

theorem safe_of_unscoped {α : Type} {program : QueueProgram α} (only : program.Only QueueEffect.Unscoped) :
    (scopeProtocol W C).Safe program mine world fun _ _ _ => True :=
  .of_only (only.imp fun free world _ => free world)

theorem QueueEffect.publishes.unscoped {α : Type} {op : QueueEffect α} (publishes : op.publishes) :
    op.Unscoped := by
  intro world
  cases op <;> first | exact trivial | exact False.elim publishes

theorem QueueEffect.delivers.unscoped {α : Type} {op : QueueEffect α} (delivers : op.delivers) : op.Unscoped := by
  intro world
  cases op <;> first | exact trivial | exact delivers.elim False.elim False.elim

theorem inlineAdmission_unscoped : (inlineAdmission C request).Only QueueEffect.Unscoped := by
  unfold inlineAdmission
  split
  · split
    · exact .remote (.perform fun _ => trivial)
    · trivial
  · trivial

theorem publishOrAbandon_safe {claim : Option QueueClaimSite} {brokerEnvelope : NativeQueueEnvelope}
    {admission : Except Thrown QueueAdmission} :
    (scopeProtocol W C).Safe (publishOrAbandon C env request claim brokerEnvelope admission) mine world
      fun _ _ _ => True :=
  safe_of_unscoped ((publishOrAbandon_only C env request).imp QueueEffect.publishes.unscoped)

theorem abandoned_safe {claim : Option QueueClaimSite} {error : Thrown} :
    (scopeProtocol W C).Safe (abandoned request claim error) mine world fun _ _ _ => True :=
  safe_of_unscoped ((abandoned_only request).imp QueueEffect.publishes.unscoped)

theorem reservedMessage_safe {site : QueueClaimSite} {brokerEnvelope : NativeQueueEnvelope}
    {admission : Except Thrown QueueAdmission}
    {admitted pending : Bool} {messageId : String} :
    (scopeProtocol W C).Safe (reservedMessage C env request site brokerEnvelope admission admitted
      messageId pending) mine world
      fun _ _ _ => True := by
  unfold reservedMessage
  split
  · exact publishOrAbandon_safe
  · split <;> exact fun _ _ => trivial

variable {key : String} (keyed : truthy request.envelope.idempotencyKey = some key)

include keyed in
/-- A claim cell is asked for a message without a run, or of a run that was sent there. -/
theorem reserveInCell_safe (known : ∀ runId, truthy request.envelope.runId = some runId →
    world.sentToCells runId = true)
    {admission : QueueProgram QueueAdmission} (only : admission.Only QueueEffect.Unscoped) :
    (scopeProtocol W C).Safe (reserveInCell C env request (queueClaimName request.envelope.queueName key)
      admission) mine world
      fun _ _ _ => True := by
  have reserves : (scopeProtocol W C).Safe
      (call (.reserve (.cell (queueClaimName request.envelope.queueName key)) request.envelope
        (request.now + QUEUE_PUBLICATION_LEASE_MS))) ∅ world fun _ _ _ => True := by
    refine .call (fun later others knows _ _ _ => ⟨⟨⟨key, keyed, .inl rfl⟩, fun _ runId ofRun => ?_⟩, ?_⟩)
      fun _ _ _ => trivial
    · exact knows runId (known runId ofRun)
    · exact fun _ _ _ _ _ _ _ _ => trivial
  refine ⟨∅, ∅, mine, fun _ _ _ => True, fun _ _ _ => True, by rw [Set.empty_union, Set.empty_union],
    Set.empty_disjoint _, Set.empty_disjoint _,
    safe_of_unscoped only, reserves, fun _ _ _ _ _ _ => trivial, fun _ _ _ _ _ _ => trivial,
    fun admission reserved _ _ _ _ _ _ => ?_⟩
  rcases reserved with error | refused | _ | ⟨admitted, messageId, pending⟩
  · exact abandoned_safe
  · exact fun _ _ => trivial
  · exact fun _ _ => trivial
  · exact reservedMessage_safe

include keyed in
theorem reserveInRun_safe {runId : String} (ofRun : truthy request.envelope.runId = some runId) :
    (scopeProtocol W C).Safe (reserveInRun C env request isolate runId
      (queueClaimName request.envelope.queueName key)) mine world
      fun _ _ _ => True := by
  have free : mine = ∅ := Set.eq_empty_of_forall_notMem fun right => (right : Empty).elim
  subst free
  have reserves : (scopeProtocol W C).Safe
      (call (.reserve (.run runId (queueClaimName request.envelope.queueName key)) request.envelope
        (request.now + QUEUE_PUBLICATION_LEASE_MS))) ∅ world
      fun returned _ later => returned = .ok .cell → later.sentToCells runId = true := by
    refine .call (fun later others knows _ _ _ =>
      ⟨⟨⟨key, keyed, .inr ⟨runId, ofRun, rfl⟩⟩, nofun⟩, ?_⟩) fun _ _ _ => nofun
    intro choice answer after run tail inv last more same
    subst same
    refine more runId (QueueWorld.sentToCells_iff.mpr ⟨request.envelope,
      queueClaimName request.envelope.queueName key, ?_⟩)
    rw [queueFleet_exec] at run
    rw [QueueEffect.exec_reservations run]
    exact .head _
  unfold reserveInRun
  refine .bind (.attempt (reserves.weaken fun returned back later _ sent last more => ?_))
  rcases returned with error | refused | _ | ⟨admitted, messageId, pending⟩
  · exact abandoned_safe
  · exact fun _ _ => trivial
  · have sent := more runId (sent rfl)
    refine .bind (.perform fun later others knows _ _ _ =>
      ⟨knows runId sent, fun choice answer after run tail _ final most => ?_⟩)
    refine reserveInCell_safe keyed (fun own ofOwn => ?_) trivial
    obtain rfl := Option.some.inj (ofRun.symm.trans ofOwn)
    exact most runId (tail runId (knows runId sent))
  · refine .bind (.perform fun later others knows _ _ _ =>
      ⟨trivial, fun choice answer after run tail _ final most => ?_⟩)
    exact reservedMessage_safe

include keyed in
theorem sendKeyed_safe :
    (scopeProtocol W C).Safe (sendKeyed C env request isolate key) mine world fun _ _ _ => True := by
  unfold sendKeyed
  simp only
  split
  · rename_i runless
    exact reserveInCell_safe keyed (fun runId ofRun => by cases runless.symm.trans ofRun) inlineAdmission_unscoped
  · rename_i runId ofRun
    refine .bind (.perform fun later others knows _ inv _ =>
      ⟨trivial, fun choice answer after run tail _ final most => ?_⟩)
    cases run
    rcases remembered : List.lookup runId (later.runClaimScopes isolate) with _ | (_ | _)
    · exact reserveInRun_safe keyed ofRun
    · refine reserveInCell_safe keyed (fun own ofOwn => ?_) inlineAdmission_unscoped
      obtain rfl := Option.some.inj (ofRun.symm.trans ofOwn)
      refine most runId (inv.remembered isolate runId ?_)
      obtain ⟨early, late, same, -⟩ := List.lookup_eq_some_iff.mp remembered
      simp [same]
    · exact reserveInRun_safe keyed ofRun

theorem requestQueueSend_safe {envelope : NativeQueueEnvelope} {options : NativeQueueSendOptions} :
    (scopeProtocol W C).Safe (requestQueueSend C env isolate envelope options) mine world fun _ _ _ => True := by
  have sends {mine : Set (scopeProtocol W C).Right} {world : QueueWorld} :
      (scopeProtocol W C).Safe (queueSend C env isolate envelope options) mine world fun _ _ _ => True := by
    unfold queueSend
    split
    · exact fun _ _ => trivial
    split
    · exact fun _ _ => trivial
    simp only
    split
    · exact fun _ _ => trivial
    refine .bind (.perform fun later others _ _ _ _ => ⟨trivial, fun choice answer after run _ _ last _ => ?_⟩)
    simp only
    split
    · rename_i keyed
      exact sendKeyed_safe keyed
    · refine .bind (.attempt ((safe_of_unscoped inlineAdmission_unscoped).weaken fun admission _ _ _ _ _ _ => ?_))
      exact publishOrAbandon_safe
  refine .bind (.perform fun later others _ _ _ _ => ⟨trivial, fun choice answer after run _ _ last _ => ?_⟩)
  refine .bind (sends.weaken fun returned _ _ _ _ => ?_)
  cases returned with
  | error error => exact fun _ _ => trivial
  | ok answer => exact safe_of_unscoped (.perform fun _ => trivial)

theorem consumeCopy_unscoped {consumer : QueueConsumerEnv} {copy : Nat} :
    (consumeCopy C env consumer copy).Only QueueEffect.Unscoped := by
  refine .bind (.perform fun _ => trivial) fun received => ?_
  have any : (consume { body := some received.1, attempts := received.2.1 } consumer).Only fun _ => True := .any
  refine .handle (fun op _ => ?_) any
  cases op with
  | now => exact .perform fun _ => trivial
  | send => exact .attempt (.remote ⟨fun _ => trivial, fun _ => .ofExcept⟩)
  | deliver => exact .attempt (.remote (deliverQueueMessage_only.imp QueueEffect.delivers.unscoped))
  | ack => exact .perform fun _ => trivial
  | retry => exact .perform fun _ => trivial

theorem orphanAlarm_unscoped {messageId : String} : (orphanAlarm env messageId).Only QueueEffect.Unscoped := by
  refine .bind (.perform fun _ => trivial) fun leased => ?_
  split
  · trivial
  split
  · trivial
  · refine .bind (.remote (.perform fun _ => trivial)) fun _ =>
      .bind (.remote ⟨fun _ => trivial, fun _ => .ofExcept⟩) fun _ => ?_
    exact .perform fun _ => trivial

theorem deleteQueuePage_unscoped {runId : String} : (deleteQueuePage env runId).Only QueueEffect.Unscoped := by
  refine .bind (.perform fun _ => trivial) fun page => ?_
  split
  · trivial
  split
  · trivial
  · refine .bind ?_ fun _ => .perform fun _ => rfl
    unfold deletePageObjects
    split
    · trivial
    · exact .remote (.perform fun _ => trivial)

theorem queueTask_safe (task : QueueTask) (starts : task.starts = true) :
    (scopeProtocol W C).Safe (task.program C) ∅ world fun _ _ _ => True := by
  cases task with
  | send => exact requestQueueSend_safe
  | consume => exact safe_of_unscoped consumeCopy_unscoped
  | orphanAlarm => exact safe_of_unscoped orphanAlarm_unscoped
  | claimAlarm => exact safe_of_unscoped (.perform fun _ => trivial)
  | deleteQueuePage => exact safe_of_unscoped deleteQueuePage_unscoped
  | runCell runId op =>
    refine safe_of_unscoped (.perform fun _ => ?_)
    cases op <;> first | rfl | cases starts
  | restart => exact safe_of_unscoped (.perform fun _ => trivial)
  | clock => exact safe_of_unscoped (.perform fun _ => trivial)

theorem ScopesKept.start {runs : String → RunStore} : ScopesKept { runs } where
  sent _ sent := by cases sent
  named _ _ admitted := by
    obtain ⟨_, _, member⟩ := admitted
    cases member
  cells _ _ admitted := by
    obtain ⟨_, _, member⟩ := admitted
    cases member
  runs _ _ _ admitted := by
    obtain ⟨_, _, member⟩ := admitted
    cases member
  remembered _ _ member := by cases member

/-- The claim of a key lies in the claim cell if the run was sent there, or has none. -/
theorem ScopesKept.oneClaimScope (kept : ScopesKept world) (runId queueName idempotencyKey : String) :
    world.OneClaimScope runId queueName idempotencyKey := by
  have claim : ∃ site : QueueClaimSite, ∀ envelope own, world.Admitted envelope own →
    envelope.runId = some runId →
      envelope.queueName = queueName → envelope.idempotencyKey = some idempotencyKey → own = site := by
    let claimName := queueClaimName queueName idempotencyKey
    refine ⟨if runId = "" ∨ world.sentToCells runId = true then .cell claimName else .run runId claimName,
      fun envelope own admitted ofRun queue keyed => ?_⟩
    obtain ⟨key, truthyKey, placed⟩ := kept.named envelope own admitted
    obtain ⟨truthyKey, -⟩ := truthy_eq_some.mp truthyKey
    obtain rfl := Option.some.inj (truthyKey.symm.trans keyed)
    rw [queue] at placed
    rcases placed with rfl | ⟨id, ofId, rfl⟩
    · by_cases named : runId = ""
      · simp [named, claimName]
      · rw [if_pos (.inr (kept.cells envelope _ admitted runId (truthy_eq_some.mpr ⟨ofRun, named⟩)))]
    · obtain ⟨ofId, named⟩ := truthy_eq_some.mp ofId
      obtain rfl := Option.some.inj (ofId.symm.trans ofRun)
      have unsent := (kept.runs envelope id _ admitted).1
      rw [if_neg (by simp [named, unsent])]
  refine ⟨claim, fun first second one two admitted admitted' ofRun queue keyed ofRun' queue' keyed' _ _ => ?_⟩
  obtain ⟨site, same⟩ := claim
  rw [same first one admitted ofRun queue keyed, same second two admitted' ofRun' queue' keyed']

/-- In every run in which no run is created after its cell has sent an enqueue to a claim
cell, a run keeps one claim scope. -/
theorem runClaimScope_unchanged {runs : String → RunStore} {pool : Pool QueueEffect Thrown QueueWorld}
    (path : (queueFleet C W createdFirst).Leads (queueStart { runs }) pool)
    (runId queueName idempotencyKey : String) :
    pool.state.OneClaimScope runId queueName idempotencyKey := by
  have start : (scopeProtocol W C).Sound (queueStart { runs }) fun _ => ∅ :=
    ⟨ScopesKept.start, fun _ _ _ => Set.disjoint_empty _, fun _ _ stored => by cases stored⟩
  obtain ⟨⟨owns, sound⟩, -⟩ := start.leads (fun task state starts => queueTask_safe task starts) path
  exact sound.inv.oneClaimScope runId queueName idempotencyKey

end Fleet

section Rivals

/-- Two messages of one run, queue and idempotency key. -/
def rivalEnvelope (messageId : String) : NativeQueueEnvelope :=
  { messageId, queueName := "queue", targetBaseUrl := "url", runId := some "run", idempotencyKey := some "key"
    body := some "body" }

/-- The two messages are sent through two isolates, each until its claim is reserved. -/
def sendFirst (thread : Nat) : List (Action QueueTask Thrown QueueChoice) :=
  .spawn (.send {} 0 (rivalEnvelope "first") {}) :: List.replicate 6 (.advance thread [] {}) ++
    [.advance thread [.right] {}]

def sendSecond (thread : Nat) : List (Action QueueTask Thrown QueueChoice) :=
  .spawn (.send {} 1 (rivalEnvelope "second") {}) :: List.replicate 4 (.advance thread [] {})

def createRun (thread : Nat) : List (Action QueueTask Thrown QueueChoice) :=
  [.spawn (.runCell "run" (.resilientStart "run" "deployment" "workflow" (.string "input"))),
    .advance thread [] {}]

/-- The run is created first: the second message finds the first one in the run cell. -/
theorem runClaimScope_unchanged_created : ∃ pool : Pool QueueEffect Thrown QueueWorld,
    pool.state.reservations = [⟨rivalEnvelope "second", .run "run" "claim:5:queue:key", .run false "first" true⟩,
      ⟨rivalEnvelope "first", .run "run" "claim:5:queue:key", .run true "first" false⟩] ∧
    pool.state.OneClaimScope "run" "queue" "key" := by
  have runs : ((queueFleet .plain .unary createdFirst).schedule
      (createRun 0 ++ (sendFirst 1).take 5 ++ sendSecond 2) (queueStart {})).map (·.state.reservations) =
        some [⟨rivalEnvelope "second", .run "run" "claim:5:queue:key", .run false "first" true⟩,
          ⟨rivalEnvelope "first", .run "run" "claim:5:queue:key", .run true "first" false⟩] := by decide +kernel
  obtain ⟨pool, reached, reserved⟩ := Option.map_eq_some_iff.mp runs
  exact ⟨pool, reserved, runClaimScope_unchanged (.of_schedule reached) "run" "queue" "key"⟩

/-- The run is created between the two: one message is reserved in the claim cell and the
other one in the run cell, and neither is finished. -/
theorem runClaimScope_changes : ∃ pool : Pool QueueEffect Thrown QueueWorld,
    (queueFleet .plain .unary anyRun).Leads (queueStart {}) pool ∧
      (pool.state.kept (.cell "claim:5:queue:key")).names "first" ∧
      (pool.state.kept (.run "run" "claim:5:queue:key")).names "second" ∧
      ¬ pool.state.OneClaimScope "run" "queue" "key" := by
  have runs : ((queueFleet .plain .unary anyRun).schedule
      (sendFirst 0 ++ createRun 1 ++ sendSecond 2) (queueStart {})).map (fun pool => (pool.state.reservations,
        (pool.state.kept (.cell "claim:5:queue:key")).reservation.map (·.messageId),
        (pool.state.kept (.run "run" "claim:5:queue:key")).reservation.map (·.messageId))) =
        some ([⟨rivalEnvelope "second", .run "run" "claim:5:queue:key", .run true "second" false⟩,
          ⟨rivalEnvelope "first", .cell "claim:5:queue:key", .run true "first" false⟩,
          ⟨rivalEnvelope "first", .run "run" "claim:5:queue:key", .cell⟩], some "first",
            some "second") := by decide +kernel
  obtain ⟨pool, reached, found⟩ := Option.map_eq_some_iff.mp runs
  simp only [Prod.mk.injEq] at found
  obtain ⟨reserved, inCell, inRun⟩ := found
  obtain ⟨first, storedFirst, namedFirst⟩ := Option.map_eq_some_iff.mp inCell
  obtain ⟨second, storedSecond, namedSecond⟩ := Option.map_eq_some_iff.mp inRun
  refine ⟨pool, .of_schedule reached, .inl ⟨first, storedFirst, namedFirst⟩,
    .inl ⟨second, storedSecond, namedSecond⟩, fun one => ?_⟩
  obtain ⟨site, same⟩ := one.claim
  have cell := same (rivalEnvelope "first") _
    ⟨"first", false, by rw [reserved]; exact .tail _ (.head _)⟩ rfl rfl rfl
  have run := same (rivalEnvelope "second") _ ⟨"second", false, by rw [reserved]; exact .head _⟩ rfl rfl rfl
  cases cell.trans run.symm

end Rivals

end CelldWorld
