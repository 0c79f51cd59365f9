import CelldWorld.QueueDelivery
import CelldWorld.QueueSites

namespace CelldWorld

open Interleaving QueueProgram

/-- An operation of a delivery, with the world before and after it. -/
abbrev QueueMoment := Moment QueueEffect QueueWorld

/-- The world answered as it was. -/
def QueueMoment.happens (W : WorldContract) (moment : QueueMoment) : Prop :=
  ∃ choice, moment.op.exec W choice moment.before = some (moment.answer, moment.after)

namespace NativeQueueEnvelope
variable (envelope : NativeQueueEnvelope) (world : QueueWorld)

def RunGone : Prop :=
  ∃ runId, truthy envelope.runId = some runId ∧ ((world.runs runId).tombstoneFrom world.now).isSome

def PayloadGone : Prop :=
  ∃ key, truthy envelope.payloadKey = some key ∧ world.payloads key = none

/-- The key's live claim belongs to a different message. -/
def OtherClaimed : Prop :=
  ∃ site claim, deliveryQueueClaim envelope = some site ∧ (world.kept site).claim = some claim ∧
    world.now < claim.expiresAt ∧ claim.messageId ≠ envelope.messageId

/-- A status that acknowledges the message. -/
def Acknowledges (C : QueueContract) (env : QueueWorkerEnv) (callback : QueueCallback) : Prop :=
  callback.ok = true ∨ callback.status ∈ PERMANENT_QUEUE_STATUSES ∧
    (parseDeploymentUrls C env = .ok none ∨ truthy envelope.runId = none)

end NativeQueueEnvelope

namespace QueueMoment

/-- The claim of the message is refused because the message itself is in flight or held. -/
def RefusesOwn (envelope : NativeQueueEnvelope) (claim : InflightClaim) (moment : QueueMoment) : Prop :=
  ∃ site staleMs retryAt, moment.toPerformed =
    ⟨.claim site envelope.messageId staleMs, .ok (.answered false retryAt)⟩ ∧
    (moment.before.kept site).claim = some claim ∧ claim.messageId = envelope.messageId

/-- The delivery reads its clock after a refusal. -/
def ReadsClock (now : Nat) (moment : QueueMoment) : Prop :=
  ∃ site messageId retryAt, moment.toPerformed = ⟨.nowAfterRefusal site messageId retryAt, now⟩

end QueueMoment

/-- A delivery is complete only for a reason, and suspends what it was refused because of
itself. -/
structure DeliversSafely (C : QueueContract) (env : QueueWorkerEnv) (envelope : NativeQueueEnvelope)
    (moments : List QueueMoment) (result : Except Thrown QueueDeliveryResult) : Prop where
  complete : result = .ok .complete → ∃ moment ∈ moments,
    (∃ request callback, moment.toPerformed = ⟨.fetch request, callback⟩ ∧ envelope.Acknowledges C env callback) ∨
      envelope.RunGone moment.before ∨ envelope.PayloadGone moment.before ∨ envelope.OtherClaimed moment.before
  suspends : ∀ moment ∈ moments, ∀ claim, moment.RefusesOwn envelope claim →
    ∃ timeoutSeconds, result = .ok (.suspend timeoutSeconds)

/-- Whenever a message is refused because of itself, the delivery reads its clock before
the time that the refusal gives. -/
def ReadsInTime (envelope : NativeQueueEnvelope) (moments : List QueueMoment) : Prop :=
  ∀ refusal ∈ moments, ∀ claim, refusal.RefusesOwn envelope claim → ∀ reading ∈ moments, ∀ now,
    reading.ReadsClock now → now < claim.retryAt.getD claim.expiresAt

variable {C : QueueContract} {env : QueueWorkerEnv} {envelope : NativeQueueEnvelope} {attempt : Nat}

theorem emits_call {α : Type} {op : QueueEffect (Except Thrown α)} {trace : List (Performed QueueEffect)}
    {outcome : Except Thrown α} (emits : (call op).Emits trace (some outcome)) :
    trace = [⟨op, outcome⟩] ∨ trace = [] ∧ ∃ error, outcome = .error error := by
  rcases Prog.emits_remote emits with (⟨-, same⟩ | ⟨answer, rest, rfl, returns⟩) | lost
  · cases same
  · obtain ⟨rfl, rfl⟩ := Prog.emits_ofExcept returns
    exact .inl rfl
  · exact .inr lost

theorem emits_ask {α : Type} {op : QueueEffect α} {trace : List (Performed QueueEffect)}
    {outcome : Except Thrown α}
    (emits : (ask op).Emits trace (some outcome)) :
    (∃ answer, trace = [⟨op, answer⟩] ∧ outcome = .ok answer) ∨ trace = [] ∧ ∃ error, outcome = .error error :=
  (Prog.emits_remote emits).imp_left Prog.emits_perform

/-- The claim of a delivery and the reading after it. -/
def QueueEffect.claims {α : Type} : QueueEffect α → Prop
  | .claim .. | .nowAfterRefusal .. => True
  | _ => False

def QueueEffect.isReading {α : Type} : QueueEffect α → Bool
  | .nowAfterRefusal .. => true
  | _ => false

theorem QueueEffect.settles.unclaimed {α : Type} {op : QueueEffect α} (settles : op.settles) : ¬ op.claims := by
  cases op <;> first | exact id | exact False.elim settles

/-- An operation whose answer is a reason to complete the message. -/
inductive Reason (C : QueueContract) (env : QueueWorkerEnv) (envelope : NativeQueueEnvelope) :
    Performed QueueEffect → Prop
  | acknowledged {request : QueueCallbackRequest} {callback : QueueCallback} :
      envelope.Acknowledges C env callback →
      Reason C env envelope ⟨.fetch request, callback⟩
  | expired {site : QueueClaimSite} : deliveryQueueClaim envelope = some site →
      Reason C env envelope ⟨.claim site envelope.messageId QUEUE_CLAIM_STALE_MS, .ok .expired⟩
  | refused {runId message : String} : truthy envelope.runId = some runId →
      Reason C env envelope ⟨.getQueueAdmission runId, .refused message⟩
  | missing {key : String} : truthy envelope.payloadKey = some key →
      Reason C env envelope ⟨.readPayload key, none⟩

/-- No claim was refused. -/
def Unrefused (trace : List (Performed QueueEffect)) : Prop :=
  ∀ site messageId staleMs retryAt, ⟨.claim site messageId staleMs, .ok (.answered false retryAt)⟩ ∉ trace

/-- One claim was refused, and the clock was read after it. -/
structure Refused (envelope : NativeQueueEnvelope) (retryAt : Option Nat) (now : Nat)
    (trace : List (Performed QueueEffect)) : Prop where
  claim : ∃ site, deliveryQueueClaim envelope = some site ∧
    ⟨.claim site envelope.messageId QUEUE_CLAIM_STALE_MS, .ok (.answered false retryAt)⟩ ∈ trace ∧
    ⟨.nowAfterRefusal site envelope.messageId retryAt, now⟩ ∈ trace
  claims : ∀ site messageId staleMs retryAt',
    ⟨.claim site messageId staleMs, .ok (.answered false retryAt')⟩ ∈ trace → retryAt' = retryAt
  readings : ∀ site messageId retryAt' now', ⟨.nowAfterRefusal site messageId retryAt', now'⟩ ∈ trace → now' = now

/-- How taking the claim ends, by what was performed. -/
inductive ClaimOutcome (C : QueueContract) (env : QueueWorkerEnv) (envelope : NativeQueueEnvelope)
    (trace : List (Performed QueueEffect)) :
    Except Thrown (QueueDeliveryResult ⊕ Except Thrown QueueAdmission) → Prop
  | failed {error : Thrown} : Unrefused trace → ClaimOutcome C env envelope trace (.error error)
  | expired : Unrefused trace → (∃ performed ∈ trace, Reason C env envelope performed) →
      ClaimOutcome C env envelope trace (.ok (.inl .complete))
  | admitted {admission : Except Thrown QueueAdmission} : Unrefused trace →
      (∀ message, admission = .ok (.refused message) → ∃ performed ∈ trace, Reason C env envelope performed) →
      ClaimOutcome C env envelope trace (.ok (.inr admission))
  | refused {retryAt : Option Nat} {now : Nat} : Refused envelope retryAt now trace →
      ClaimOutcome C env envelope trace (.ok (.inl (refusedDelivery retryAt now)))

theorem deliveryAdmission_emits {trace : List (Performed QueueEffect)} {outcome : Except Thrown QueueAdmission}
    (emits : (deliveryAdmission envelope).Emits trace (some outcome)) :
    (∀ performed ∈ trace, ¬ performed.op.claims) ∧ ∀ message, outcome = .ok (.refused message) →
      ∃ performed ∈ trace, Reason C env envelope performed := by
  unfold deliveryAdmission at emits
  have admitted {trace : List (Performed QueueEffect)}
      (emits : (pure .ok : QueueProgram QueueAdmission).Emits trace (some outcome)) :
      (∀ performed ∈ trace, ¬ performed.op.claims) ∧ ∀ message, outcome = .ok (.refused message) →
        ∃ performed ∈ trace, Reason C env envelope performed := by
    obtain ⟨rfl, rfl⟩ := Prog.emits_pure emits
    refine ⟨fun _ member => absurd member List.not_mem_nil, fun message same => ?_⟩
    cases same
  split at emits
  · rename_i runId bearing
    split at emits
    · rcases emits_ask emits with ⟨answer, rfl, rfl⟩ | ⟨rfl, error, rfl⟩
      · refine ⟨fun performed member => ?_, fun message same => ⟨_, .head _, ?_⟩⟩
        · rw [List.mem_singleton.mp member]
          exact id
        · rw [Except.ok.inj same]
          exact .refused bearing
      · refine ⟨fun _ member => absurd member List.not_mem_nil, fun message same => ?_⟩
        cases same
    · exact admitted emits
  · exact admitted emits

theorem claimDelivery_emits {trace : List (Performed QueueEffect)}
    {outcome : Except Thrown (QueueDeliveryResult ⊕ Except Thrown QueueAdmission)}
    (emits : (claimDelivery envelope).Emits trace (some outcome)) :
    ClaimOutcome C env envelope trace outcome := by
  have unclaimed {trace : List (Performed QueueEffect)} (others : ∀ performed ∈ trace, ¬ performed.op.claims) :
      Unrefused trace :=
    fun _ _ _ _ member => others _ member trivial
  unfold claimDelivery at emits
  split at emits
  · rcases Prog.emits_bind emits with ⟨same, -⟩ | ⟨error, same, throws⟩ | ⟨value, head, tail, rfl, admits, emits⟩
    · cases same
    · obtain ⟨returned, same, -⟩ := Prog.emits_attempt throws
      cases same
    · obtain ⟨returned, same, admits⟩ := Prog.emits_attempt admits
      cases same
      obtain ⟨rfl, rfl⟩ := Prog.emits_pure emits
      rw [List.append_nil]
      obtain ⟨others, refused⟩ := @deliveryAdmission_emits C env envelope _ _ admits
      exact .admitted (unclaimed others) refused
  · rename_i site keyed
    obtain ⟨one, two, first, second, head, tail, rfl, admits, claims, merges, emits⟩ := emits
    rcases emits with ⟨-, same⟩ | ⟨admission, claimed, rfl, rfl, emits⟩
    · cases same
    obtain ⟨others, refused⟩ := @deliveryAdmission_emits C env envelope _ _ admits
    have alone {performed : Performed QueueEffect} (member : performed ∈ head) (claim : performed.op.claims) :
        performed ∈ second :=
      (merges.mem_iff.mp member).resolve_left fun admission => others _ admission claim
    rcases emits_call claims with rfl | ⟨rfl, error, rfl⟩
    · have claimed_once {performed : Performed QueueEffect} (member : performed ∈ head)
        (claim : performed.op.claims) :
          performed = ⟨.claim site envelope.messageId QUEUE_CLAIM_STALE_MS, claimed⟩ :=
        List.mem_singleton.mp (alone member claim)
      have claim_in : ⟨.claim site envelope.messageId QUEUE_CLAIM_STALE_MS, claimed⟩ ∈ head :=
        merges.mem_iff.mpr (.inr (.head _))
      match claimed with
      | .error error =>
        obtain ⟨rfl, rfl⟩ := Prog.emits_throw emits
        rw [List.append_nil]
        refine .failed fun site messageId staleMs retryAt member => ?_
        cases claimed_once member trivial
      | .ok .expired =>
        obtain ⟨rfl, rfl⟩ := Prog.emits_pure emits
        rw [List.append_nil]
        refine .expired (fun site messageId staleMs retryAt member => ?_) ⟨_, claim_in, .expired keyed⟩
        cases claimed_once member trivial
      | .ok (.answered true _) =>
        obtain ⟨rfl, rfl⟩ := Prog.emits_pure emits
        rw [List.append_nil]
        refine .admitted (fun site messageId staleMs retryAt member => ?_) fun message same => ?_
        · cases claimed_once member trivial
        · obtain ⟨performed, asked, reason⟩ := refused message same
          exact ⟨performed, merges.mem_iff.mpr (.inl asked), reason⟩
      | .ok (.answered false retryAt) =>
        change ((Prog.perform (QueueEffect.nowAfterRefusal site envelope.messageId retryAt)).bind
          fun now => .pure (Sum.inl (refusedDelivery retryAt now))).Emits _ _ at emits
        rcases Prog.emits_bind emits with ⟨same, -⟩ | ⟨error, same, throws⟩ | ⟨now, read, rest, rfl, reads, goes⟩
        · cases same
        · obtain ⟨answer, -, same⟩ := Prog.emits_perform throws
          cases same
        · obtain ⟨answer, rfl, same⟩ := Prog.emits_perform reads
          cases same
          obtain ⟨rfl, rfl⟩ := Prog.emits_pure goes
          refine .refused
            ⟨⟨site, keyed, List.mem_append_left _ claim_in, List.mem_append_right _ (.head _)⟩, ?_, ?_⟩
          · intro site' messageId staleMs retryAt' member
            rcases List.mem_append.mp member with early | late
            · cases claimed_once early trivial
              rfl
            · cases congrArg (·.op.isReading) (List.mem_singleton.mp late)
          · intro site' messageId retryAt' now' member
            rcases List.mem_append.mp member with early | late
            · cases congrArg (·.op.isReading) (claimed_once early trivial)
            · cases List.mem_singleton.mp late
              rfl
    · obtain ⟨rfl, rfl⟩ := Prog.emits_throw emits
      rw [List.append_nil]
      exact .failed fun site messageId staleMs retryAt member => nomatch alone member trivial

theorem suspendDelivery_emits {callback : QueueCallback} {trace : List (Performed QueueEffect)}
    {result : QueueDeliveryResult}
    (emits : (suspendDelivery envelope callback).Emits trace (some (.ok result))) : result ≠ .complete := by
  unfold suspendDelivery at emits
  obtain ⟨timeoutSeconds, _, rest, -, -, emits⟩ := Prog.emits_bind_ok emits
  obtain ⟨now, _, rest, -, -, emits⟩ := Prog.emits_bind_ok emits
  split at emits
  · cases (Prog.emits_throw emits).2
  · obtain ⟨-, _, rest, -, -, emits⟩ := Prog.emits_bind_ok emits
    obtain ⟨-, _, rest, -, -, emits⟩ := Prog.emits_bind_ok emits
    cases (Prog.emits_pure emits).2
    exact nofun

/-- A callback that completes its message has acknowledged it. -/
theorem callDelivery_emits {body : Option String} {trace : List (Performed QueueEffect)}
    (emits : (callDelivery C env envelope attempt body).Emits trace (some (.ok .complete))) :
    ∃ performed ∈ trace, Reason C env envelope performed := by
  unfold callDelivery at emits
  obtain ⟨urls, _, rest, rfl, parses, emits⟩ := Prog.emits_bind_ok emits
  obtain ⟨url, _, rest, rfl, -, emits⟩ := Prog.emits_bind_ok emits
  obtain ⟨callback, _, rest, rfl, calls, emits⟩ := Prog.emits_bind_ok emits
  split at emits
  · rename_i acknowledges
    rcases emits_ask calls with ⟨answer, rfl, same⟩ | ⟨-, error, same⟩
    · cases same
      have acknowledged : envelope.Acknowledges C env callback := by
        rcases acknowledges with ok | ⟨permanent, rfl | runless⟩
        · exact .inl ok
        · exact .inr ⟨permanent, .inl (Prog.emits_ofExcept parses).2.symm⟩
        · exact .inr ⟨permanent, .inr runless⟩
      exact ⟨_, List.mem_append_right _ (List.mem_append_right _ (.head _)), .acknowledged acknowledged⟩
    · cases same
  · split at emits
    · exact absurd rfl (suspendDelivery_emits emits)
    · obtain ⟨-, _, rest, rfl, -, emits⟩ := Prog.emits_bind_ok emits
      cases (Prog.emits_pure emits).2

/-- A delivery that completes its message has a reason to. -/
theorem handleDelivery_emits {admission : Except Thrown QueueAdmission} {trace : List (Performed QueueEffect)}
    (emits : (handleDelivery C env envelope attempt admission).Emits trace (some (.ok .complete))) :
    (∃ message, admission = .ok (.refused message)) ∨ ∃ performed ∈ trace, Reason C env envelope performed := by
  unfold handleDelivery at emits
  obtain ⟨admitted, _, rest, rfl, admits, emits⟩ := Prog.emits_bind_ok emits
  split at emits
  · rename_i message
    exact .inl ⟨message, (Prog.emits_ofExcept admits).2.symm⟩
  right
  split at emits
  · obtain ⟨performed, called, reason⟩ := callDelivery_emits emits
    exact ⟨performed, List.mem_append_right _ called, reason⟩
  rename_i key offloaded
  split at emits
  · cases (Prog.emits_throw emits).2
  obtain ⟨payload, _, rest, rfl, reads, emits⟩ := Prog.emits_bind_ok emits
  split at emits
  · rcases emits_ask reads with ⟨answer, rfl, same⟩ | ⟨-, error, same⟩
    · cases same
      exact ⟨_, List.mem_append_right _ (List.mem_append_left _ (.head _)), .missing offloaded⟩
    · cases same
  · obtain ⟨performed, called, reason⟩ := callDelivery_emits emits
    exact ⟨performed, List.mem_append_right _ (List.mem_append_right _ called), reason⟩

/-- A delivery was refused its claim, or completes its message for a reason. -/
theorem deliverEnvelope_emits {trace : List (Performed QueueEffect)} {result : Except Thrown QueueDeliveryResult}
    (emits : (deliverEnvelope C env envelope attempt).Emits trace (some result)) :
    (Unrefused trace ∧ (result = .ok .complete → ∃ performed ∈ trace, Reason C env envelope performed)) ∨
      ∃ retryAt now, Refused envelope retryAt now trace ∧ result = .ok (refusedDelivery retryAt now) := by
  unfold deliverEnvelope at emits
  rcases Prog.emits_bind emits with ⟨same, -⟩ | ⟨error, same, throws⟩ | ⟨taken, head, tail, rfl, claims, emits⟩
  · cases same
  · cases @claimDelivery_emits C env envelope _ _ throws with
    | failed unrefused =>
      cases same
      exact .inl ⟨unrefused, nofun⟩
  generalize outcome : Except.ok taken = taken' at claims
  cases @claimDelivery_emits C env envelope _ _ claims with
  | failed => cases outcome
  | expired unrefused reason =>
    cases outcome
    obtain ⟨rfl, rfl⟩ := Prog.emits_pure emits
    rw [List.append_nil]
    exact .inl ⟨unrefused, fun _ => reason⟩
  | @refused retryAt now refused =>
    cases outcome
    obtain ⟨rfl, rfl⟩ := Prog.emits_pure emits
    rw [List.append_nil]
    exact .inr ⟨retryAt, now, refused, rfl⟩
  | @admitted admission unrefused reason =>
    cases outcome
    left
    have unclaimed {rest : List (Performed QueueEffect)} (others : ∀ performed ∈ rest, ¬ performed.op.claims) :
        Unrefused (head ++ rest) := by
      intro site messageId staleMs retryAt member
      rcases List.mem_append.mp member with early | late
      · exact unrefused site messageId staleMs retryAt early
      · exact others _ late trivial
    rcases Prog.emits_bind emits with ⟨same, -⟩ | ⟨error, same, throws⟩ |
      ⟨handled, acts, rest, rfl, handles, goes⟩
    · cases same
    · obtain ⟨returned, same, -⟩ := Prog.emits_attempt throws
      cases same
    obtain ⟨returned, same, handles⟩ := Prog.emits_attempt handles
    cases same
    have quiet := (handleDelivery_only.imp QueueEffect.settles.unclaimed).of_emits handles
    split at goes
    · rename_i result
      obtain ⟨rfl, rfl⟩ := Prog.emits_pure goes
      rw [List.append_nil]
      refine ⟨unclaimed quiet, fun completes => ?_⟩
      cases completes
      rcases handleDelivery_emits handles with ⟨message, refused⟩ | ⟨performed, called, because⟩
      · obtain ⟨performed, asked, because⟩ := reason message refused
        exact ⟨performed, List.mem_append_left _ asked, because⟩
      · exact ⟨performed, List.mem_append_right _ called, because⟩
    · rename_i error _
      have released : (do
          withClaim (deliveryQueueClaim envelope) (.release · envelope.messageId)
          .throw error : QueueProgram QueueDeliveryResult).Only QueueEffect.settles :=
        .bind (withClaim_only fun _ => trivial) fun _ => trivial
      have silent := (released.imp QueueEffect.settles.unclaimed).of_emits goes
      refine ⟨unclaimed fun performed member => ?_, fun completes => ?_⟩
      · rcases List.mem_append.mp member with early | late
        · exact quiet performed early
        · exact silent performed late
      · cases completes
        obtain ⟨-, _, _, -, -, thrown⟩ := Prog.emits_bind_ok goes
        cases (Prog.emits_throw thrown).2

namespace QueueMoment
variable {W : WorldContract} {moment : QueueMoment} {site : QueueClaimSite} {messageId : String} {staleMs : Nat}

theorem happens_refused {retryAt : Option Nat} (happens : moment.happens W)
    (same : moment.toPerformed = ⟨.claim site messageId staleMs, .ok (.answered false retryAt)⟩) :
    ∃ existing, (moment.before.kept site).claim = some existing ∧ moment.before.now < existing.expiresAt ∧
      (existing.messageId = messageId → retryAt = some (existing.retryAt.getD existing.expiresAt)) := by
  obtain ⟨⟨op, answer⟩, before, after⟩ := moment
  cases same
  obtain ⟨choice, run⟩ := happens
  obtain ⟨existing, stored, live, own⟩ := (QueueEffect.exec_event run rfl).step.refusedFor
  exact ⟨existing, stored, live, fun same => (own same).1⟩

/-- A run-scoped claim finds its run gone. -/
theorem happens_expired {runId claimName : String} (happens : moment.happens W)
    (same : moment.toPerformed = ⟨.claim (.run runId claimName) messageId staleMs, .ok .expired⟩) :
    ((moment.before.runs runId).tombstoneFrom moment.before.now).isSome := by
  obtain ⟨⟨op, answer⟩, before, after⟩ := moment
  cases same
  obtain ⟨choice, run⟩ := happens
  simp only [QueueEffect.exec, QueueWorld.atRun, Option.some.injEq] at run
  split at run
  · cases congrArg Prod.fst run
  rename_i answered store executed
  cases congrArg Prod.fst run
  unfold WorkflowRunDO.claimRunQueueMessage at executed
  split at executed
  · cases executed
  split at executed
  · assumption
  simp only at executed
  repeat' split at executed
  all_goals cases executed

/-- A claim cell knows of no run. -/
theorem not_expired {claimName : String} (happens : moment.happens W) :
    moment.toPerformed ≠ ⟨.claim (.cell claimName) messageId staleMs, .ok .expired⟩ := by
  obtain ⟨⟨op, answer⟩, before, after⟩ := moment
  intro same
  cases same
  obtain ⟨choice, run⟩ := happens
  simp only [QueueEffect.exec, QueueWorld.atCell, Option.some.injEq] at run
  split at run
  · cases congrArg Prod.fst run
  rename_i answered cell executed
  have same := congrArg Prod.fst run
  cases same
  cases claimed : WorkflowRunDO.claimInflight before.now messageId staleMs (before.claims claimName) with
  | error error =>
    rw [claimed] at executed
    cases executed
  | ok result =>
    rw [claimed] at executed
    cases executed

theorem happens_admission {runId message : String} (happens : moment.happens W)
    (same : moment.toPerformed = ⟨.getQueueAdmission runId, .refused message⟩) :
    ((moment.before.runs runId).tombstoneFrom moment.before.now).isSome := by
  obtain ⟨⟨op, answer⟩, before, after⟩ := moment
  cases same
  obtain ⟨choice, run⟩ := happens
  have answered := congrArg Prod.fst (Option.some.inj run)
  simp only [WorkflowRunDO.getQueueAdmission] at answered
  split at answered
  · rename_i tombstone expired
    rw [expired]
    rfl
  · cases answered

theorem happens_missing {key : String} (happens : moment.happens W)
    (same : moment.toPerformed = ⟨.readPayload key, none⟩) : moment.before.payloads key = none := by
  obtain ⟨⟨op, answer⟩, before, after⟩ := moment
  cases same
  obtain ⟨choice, run⟩ := happens
  exact Option.map_eq_none_iff.mp (congrArg Prod.fst (Option.some.inj run))

end QueueMoment

/-- What a delivery does with its message, once the request for it is valid. -/
theorem deliverQueueMessage_emits {secret : Option String} {trace : List (Performed QueueEffect)}
    {result : Except Thrown QueueDeliveryResult}
    (emits : (deliverQueueMessage C env secret envelope attempt).Emits trace (some result)) :
    (trace = [] ∧ ∃ error, result = .error error) ∨
      (deliverEnvelope C env envelope attempt).Emits trace (some result) := by
  have failed {error : Thrown} (emits : (Prog.throw error : QueueProgram _).Emits trace (some result)) :
      trace = [] ∧ ∃ error, result = .error error :=
    ⟨(Prog.emits_throw emits).1, error, (Prog.emits_throw emits).2⟩
  unfold deliverQueueMessage at emits
  split at emits
  · exact .inl (failed emits)
  split at emits
  · exact .inl (failed emits)
  split at emits
  · exact .inl (failed emits)
  rename_i valid
  obtain ⟨rfl, -⟩ := validateNativeQueueEnvelope_ok valid
  split at emits
  · exact .inl (failed emits)
  split at emits
  · exact .inl (failed emits)
  · exact .inr emits

/-- A reason to complete the message is a fact about the world at its moment. -/
theorem Reason.holds {W : WorldContract} {moment : QueueMoment} (happens : moment.happens W)
    (reason : Reason C env envelope moment.toPerformed) :
    (∃ request callback, moment.toPerformed = ⟨.fetch request, callback⟩ ∧ envelope.Acknowledges C env callback) ∨
      envelope.RunGone moment.before ∨ envelope.PayloadGone moment.before ∨
        envelope.OtherClaimed moment.before := by
  generalize same : moment.toPerformed = performed at reason
  cases reason with
  | acknowledged acknowledges => exact .inl ⟨_, _, rfl, acknowledges⟩
  | @expired site keyed =>
    cases site with
    | cell claimName => exact absurd same (QueueMoment.not_expired happens)
    | run runId claimName =>
      have bearing : truthy envelope.runId = some runId := by
        unfold deliveryQueueClaim at keyed
        split at keyed
        · cases keyed
        simp only at keyed
        split at keyed
        · cases keyed
          assumption
        · cases keyed
      exact .inr (.inl ⟨runId, bearing, QueueMoment.happens_expired happens same⟩)
  | refused bearing => exact .inr (.inl ⟨_, bearing, QueueMoment.happens_admission happens same⟩)
  | missing offloaded => exact .inr (.inr (.inl ⟨_, offloaded, QueueMoment.happens_missing happens same⟩))

/-- A delivery whose claim is refused because of the message itself takes the message for
another one's duplicate when it reads its clock too late, and only then. -/
theorem deliverQueueMessage_safe_iff {W : WorldContract} {secret : Option String} {moments : List QueueMoment}
    {result : Except Thrown QueueDeliveryResult}
    (emits : (deliverQueueMessage C env secret envelope attempt).Emits
      (moments.map (·.toPerformed)) (some result))
    (happens : ∀ moment ∈ moments, moment.happens W) :
    DeliversSafely C env envelope moments result ↔ ReadsInTime envelope moments := by
  have refuses {retryAt : Option Nat} {moment : QueueMoment} {claim : InflightClaim} (member : moment ∈ moments)
      (own : moment.RefusesOwn envelope claim)
      (claims : ∀ site messageId staleMs retryAt',
        ⟨.claim site messageId staleMs, .ok (.answered false retryAt')⟩ ∈
        moments.map (·.toPerformed) → retryAt' = retryAt) :
          retryAt = some (claim.retryAt.getD claim.expiresAt) := by
    obtain ⟨site, staleMs, answered, same, stored, named⟩ := own
    obtain ⟨existing, found, -, waits⟩ := QueueMoment.happens_refused (happens moment member) same
    obtain rfl := Option.some.inj (stored.symm.trans found)
    rw [← claims site envelope.messageId staleMs answered (same ▸ List.mem_map_of_mem member)]
    exact waits named
  have unrefused (none_refused : Unrefused (moments.map (·.toPerformed))) {moment : QueueMoment}
    {claim : InflightClaim}
      (member : moment ∈ moments) : ¬ moment.RefusesOwn envelope claim := by
    rintro ⟨site, staleMs, retryAt, same, -⟩
    exact none_refused site envelope.messageId staleMs retryAt (same ▸ List.mem_map_of_mem member)
  rcases deliverQueueMessage_emits emits with ⟨empty, error, rfl⟩ | emits
  · obtain rfl := List.map_eq_nil_iff.mp empty
    refine ⟨fun _ refusal member => absurd member List.not_mem_nil, fun _ => ⟨fun completes => ?_, ?_⟩⟩
    · cases completes
    · exact fun moment member => absurd member List.not_mem_nil
  rcases deliverEnvelope_emits emits with ⟨none_refused, reason⟩ | ⟨retryAt, now, refused, rfl⟩
  · refine ⟨fun _ refusal member claim own => absurd own (unrefused none_refused member), fun _ => ?_⟩
    refine ⟨fun completes => ?_, fun moment member claim own => absurd own (unrefused none_refused member)⟩
    obtain ⟨performed, member, because⟩ := reason completes
    obtain ⟨moment, found, rfl⟩ := List.mem_map.mp member
    exact ⟨moment, found, because.holds (happens moment found)⟩
  have reads : ∀ reading ∈ moments, ∀ now', reading.ReadsClock now' → now' = now := by
    rintro reading member now' ⟨site, messageId, retryAt', same⟩
    exact refused.readings site messageId retryAt' now' (same ▸ List.mem_map_of_mem member)
  obtain ⟨site, keyed, claimed, read⟩ := refused.claim
  constructor
  · intro safe refusal member claim own reading other now' clock
    have deadline := refuses member own refused.claims
    obtain ⟨timeoutSeconds, suspends⟩ := safe.suspends refusal member claim own
    rw [reads reading other now' clock]
    simp only [deadline, refusedDelivery, Except.ok.injEq] at suspends
    split at suspends
    · assumption
    · cases suspends
  · intro timely
    have early {claim : InflightClaim} {refusal : QueueMoment} (member : refusal ∈ moments)
        (own : refusal.RefusesOwn envelope claim) : now < claim.retryAt.getD claim.expiresAt := by
      obtain ⟨reading, other, same⟩ := List.mem_map.mp read
      exact timely refusal member claim own reading other now ⟨site, envelope.messageId, retryAt, same⟩
    refine ⟨fun completes => ?_, fun refusal member claim own => ?_⟩
    · obtain ⟨moment, member, same⟩ := List.mem_map.mp claimed
      obtain ⟨existing, stored, live, waits⟩ := QueueMoment.happens_refused (happens moment member) same
      by_cases own : existing.messageId = envelope.messageId
      · have refusal : moment.RefusesOwn envelope existing := ⟨site, _, retryAt, same, stored, own⟩
        simp only [waits own, refusedDelivery, if_pos (early member refusal), Except.ok.injEq,
          reduceCtorEq] at completes
      · exact ⟨moment, member, .inr (.inr (.inr ⟨site, existing, keyed, stored, live, own⟩))⟩
    · simp only [refuses member own refused.claims, refusedDelivery, if_pos (early member own)]
      exact ⟨_, rfl⟩

/-- A keyed message without a run. -/
def keyedEnvelope : NativeQueueEnvelope :=
  { messageId := "message", queueName := "queue", targetBaseUrl := "url", idempotencyKey :=
    some "key", body := some "" }

def keyedSite : QueueClaimSite := .cell "claim:5:queue:key"

/-- The message is in flight until the minute 15. -/
def inflightWorld (now : Nat) : QueueWorld :=
  { now
    claims := fun _ => .armed none (some { messageId := "message", expiresAt := 900000 }) }

/-- A second delivery of the message is refused a millisecond before that, and reads its
clock at `now`. -/
def refusedMoments (now : Nat) : List QueueMoment :=
  [ ⟨⟨.claim keyedSite "message" QUEUE_CLAIM_STALE_MS, .ok (.answered false (some 900000))⟩,
      inflightWorld 899999, inflightWorld 899999⟩,
    ⟨⟨.nowAfterRefusal keyedSite "message" (some 900000), now⟩, inflightWorld now, inflightWorld now⟩ ]

theorem keyed_delivery :
    deliverQueueMessage .plain { WORLD_SECRET := some "secret" } (some "secret") keyedEnvelope 1 =
    deliverEnvelope .plain { WORLD_SECRET := some "secret" } keyedEnvelope 1 := rfl

theorem keyed_site : deliveryQueueClaim keyedEnvelope = some keyedSite := by decide +kernel

theorem refused_emits (now : Nat) :
    (deliverQueueMessage .plain { WORLD_SECRET := some "secret" } (some "secret") keyedEnvelope 1).Emits
      ((refusedMoments now).map (·.toPerformed)) (some (.ok (refusedDelivery (some 900000) now))) := by
  rw [keyed_delivery]
  unfold deliverEnvelope claimDelivery
  rw [keyed_site]
  refine ⟨some (.ok .ok), some (.ok (.answered false (some 900000))), [], [_], [_], [_], rfl, ⟨rfl, .inr rfl⟩,
    ?_, .right _ .nil, ?_⟩
  · exact .inr (.inl ⟨_, [_], [], rfl, .inr ⟨_, _, rfl, rfl, .inr rfl⟩, rfl, .inr rfl⟩)
  · exact .inr ⟨_, _, rfl, rfl, .inr ⟨_, _, rfl, rfl, .inr rfl⟩⟩

theorem refused_happens (now : Nat) : ∀ moment ∈ refusedMoments now, moment.happens .unary := by
  intro moment member
  rcases List.mem_cons.mp member with rfl | member
  · refine ⟨{}, ?_⟩
    have refuses : WorkflowRunDO.claimInflight 899999 "message" QUEUE_CLAIM_STALE_MS
      ((inflightWorld 899999).claims "claim:5:queue:key") =
        .ok ((false, some 900000), (inflightWorld 899999).claims "claim:5:queue:key") := by decide +kernel
    have stays : Function.update (inflightWorld 899999).claims "claim:5:queue:key"
        ((inflightWorld 899999).claims "claim:5:queue:key") = (inflightWorld 899999).claims :=
          Function.update_eq_self _ _
    simp only [QueueEffect.exec, keyedSite, QueueWorld.atCell, show (inflightWorld 899999).now =
      899999 from rfl, refuses]
    simp only [Except.map, stays]
    rfl
  · rw [List.mem_singleton.mp member]
    exact ⟨{}, rfl⟩

/-- A delivery that reads its clock in time suspends. -/
theorem deliverQueueMessage_safe_iff_early :
    DeliversSafely .plain { WORLD_SECRET := some "secret" } keyedEnvelope (refusedMoments 899999)
      (.ok (.suspend 1)) := by
  refine (deliverQueueMessage_safe_iff (refused_emits 899999) (refused_happens 899999)).mpr ?_
  rintro refusal member claim ⟨site, staleMs, retryAt, same, stored, -⟩ reading other now
    ⟨site', messageId, retryAt', read⟩
  rcases List.mem_cons.mp member with rfl | member
  · cases same
    obtain rfl := Option.some.inj stored
    rcases List.mem_cons.mp other with rfl | other
    · cases congrArg (·.op.isReading) read
    · rw [List.mem_singleton.mp other] at read
      cases read
      decide
  · rw [List.mem_singleton.mp member] at same
    cases congrArg (·.op.isReading) same

/-- A message that is in flight is acknowledged because its second delivery reads the
clock one millisecond after the refusal. -/
theorem deliverQueueMessage_loses :
    (deliverQueueMessage .plain { WORLD_SECRET := some "secret" } (some "secret") keyedEnvelope 1).Emits
        ((refusedMoments 900000).map (·.toPerformed)) (some (.ok .complete)) ∧
      (∀ moment ∈ refusedMoments 900000, moment.happens .unary) ∧
      (refusedMoments 900000).Pairwise (fun earlier later => earlier.before.now ≤ later.before.now) ∧
      ¬ DeliversSafely .plain { WORLD_SECRET := some "secret" } keyedEnvelope (refusedMoments 900000)
        (.ok .complete) := by
  refine ⟨refused_emits 900000, refused_happens 900000, ?_, fun safe => ?_⟩
  · exact .cons (fun later member => List.mem_singleton.mp member ▸ Nat.le_succ 899999)
      (.cons (fun _ member => absurd member List.not_mem_nil) .nil)
  · obtain ⟨timeoutSeconds, suspends⟩ := safe.suspends _ (.head _) { messageId := "message", expiresAt := 900000 }
      ⟨keyedSite, QUEUE_CLAIM_STALE_MS, some 900000, rfl, rfl, rfl⟩
    cases suspends

end CelldWorld
