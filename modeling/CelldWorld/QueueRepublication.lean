import CelldWorld.QueueAttempts

namespace CelldWorld

open Interleaving

/-- What `validateNativeQueueEnvelope` accepts. -/
structure NativeQueueEnvelope.Valid (envelope : NativeQueueEnvelope) : Prop where
  version : envelope.version = 1
  messageId : envelope.messageId ≠ ""
  queueName : envelope.queueName ≠ ""
  targetBaseUrl : envelope.targetBaseUrl ≠ ""
  claimScope : ∀ claimScope ∈ envelope.claimScope, claimScope = "run" ∧ envelope.runId ≠ none
  payload : envelope.payloadKey.isNone ≠ envelope.body.isNone
  notBefore : ∀ notBefore ∈ envelope.notBefore, notBefore ≤ MAX_QUEUE_SCHEDULE_TIMESTAMP_MS
  deliveryFailures : ∀ failures ∈ envelope.deliveryFailures, failures ≤ MAX_SAFE_INTEGER
  suspensionCount : ∀ count ∈ envelope.suspensionCount, count ≤ MAX_SAFE_INTEGER

theorem any_eq_false_iff {α : Type} {value : Option α} {p : α → Bool} :
    value.any p = false ↔ ∀ element ∈ value, p element = false := by
  cases value <;> simp

theorem validateNativeQueueEnvelope_iff {envelope : NativeQueueEnvelope} :
    validateNativeQueueEnvelope envelope = .ok envelope ↔ envelope.Valid := by
  constructor
  · intro valid
    unfold validateNativeQueueEnvelope at valid
    simp only at valid
    split at valid
    · cases valid
    rename_i version
    split at valid
    · cases valid
    rename_i named
    split at valid
    · cases valid
    rename_i sites
    split at valid
    · cases valid
    rename_i sourced
    split at valid
    · cases valid
    rename_i integers
    split at valid
    · cases valid
    rename_i scheduled
    simp only [List.find?_eq_none, List.mem_cons, List.not_mem_nil, or_false, forall_eq_or_imp, forall_eq,
      decide_eq_true_eq, Bool.not_eq_true, any_eq_false_iff, decide_eq_false_iff_not, not_or, not_not,
      Nat.not_lt] at named integers sites scheduled
    exact ⟨not_not.mp version, named.1, named.2.1, named.2.2, sites, sourced, scheduled,
      integers.2.1, integers.2.2⟩
  · rintro ⟨version, messageId, queueName, targetBaseUrl, claimScope, payload, notBefore, failures, count⟩
    have integers : ∀ deadline ∈ envelope.notBefore, deadline ≤ MAX_SAFE_INTEGER := fun deadline member =>
      Nat.le_trans (notBefore deadline member) (by decide)
    have named : [("messageId", envelope.messageId), ("queueName", envelope.queueName),
        ("targetBaseUrl", envelope.targetBaseUrl)].find? (·.2 = "") = none := by
      simp [messageId, queueName, targetBaseUrl]
    have bounded : [("notBefore", envelope.notBefore), ("deliveryFailures", envelope.deliveryFailures),
        ("suspensionCount", envelope.suspensionCount)].find? (·.2.any (MAX_SAFE_INTEGER < ·)) = none := by
      simp only [List.find?_eq_none, List.mem_cons, List.not_mem_nil, or_false, forall_eq_or_imp, forall_eq,
        Bool.not_eq_true, any_eq_false_iff, decide_eq_false_iff_not, Nat.not_lt]
      exact ⟨integers, failures, count⟩
    have sites : (envelope.claimScope.any fun claimScope => claimScope ≠ "run" ∨ envelope.runId = none) =
        false := by
      simpa only [any_eq_false_iff, decide_eq_false_iff_not, not_or, not_not] using claimScope
    have scheduled : envelope.notBefore.any (MAX_QUEUE_SCHEDULE_TIMESTAMP_MS < ·) = false := by
      simpa only [any_eq_false_iff, decide_eq_false_iff_not, Nat.not_lt] using notBefore
    unfold validateNativeQueueEnvelope
    simp only [version, named, bounded, sites, scheduled, payload, ne_eq, not_true, if_false, Bool.false_eq_true]

/-- The last deadline at which a suspension is accepted. The horizon of an envelope lies
`QUEUE_ALARM_EDGE_MS` before it. -/
def suspensionHorizon : Nat := MAX_QUEUE_TIMESTAMP_MS - QUEUE_CLAIM_STALE_MS

theorem suspensionHorizon_eq : suspensionHorizon = MAX_QUEUE_SCHEDULE_TIMESTAMP_MS + QUEUE_ALARM_EDGE_MS := by
  decide

/-- The delay of a suspension is accepted up to the horizon. -/
theorem queueDelayDeadline_iff {now timeoutSeconds notBefore : Nat} :
    queueDelayDeadline now (some timeoutSeconds) 1 QUEUE_CLAIM_STALE_MS = some notBefore ↔
      1 ≤ timeoutSeconds ∧ now + timeoutSeconds * 1000 ≤ suspensionHorizon ∧
        notBefore = now + timeoutSeconds * 1000 := by
  have horizon : suspensionHorizon = 9999999099999 := by decide
  have timestamps : MAX_QUEUE_TIMESTAMP_MS = 9999999999999 := rfl
  have delays : MAX_QUEUE_DELAY_SECONDS = 9999999999 := by decide
  have stale : QUEUE_CLAIM_STALE_MS = 900000 := by decide
  have safe : MAX_SAFE_INTEGER = 9007199254740991 := by decide
  unfold queueDelayDeadline checkedQueueTimestampAdd
  simp only
  constructor
  · intro accepted
    split at accepted
    · split at accepted
      · cases accepted
      split at accepted
      · cases accepted
        omega
      · cases accepted
    · cases accepted
  · rintro ⟨positive, bounded, rfl⟩
    rw [if_pos (by omega), if_neg (by omega), if_pos (by omega)]

theorem suspendedEnvelope_iff {envelope replacement : NativeQueueEnvelope} {now timeoutSeconds attempt : Nat} :
    suspendedEnvelope envelope now timeoutSeconds attempt = some replacement ↔
      1 ≤ timeoutSeconds ∧ now + timeoutSeconds * 1000 ≤ suspensionHorizon ∧
        envelope.suspensionCount.getD 0 < MAX_QUEUE_SUSPENSIONS ∧
        replacement = { envelope with
          notBefore := some (now + timeoutSeconds * 1000)
          deliveryFailures := some (attempt - 1)
          suspensionCount := some (envelope.suspensionCount.getD 0 + 1) } := by
  unfold suspendedEnvelope
  simp only
  cases deadline : queueDelayDeadline now (some timeoutSeconds) 1 QUEUE_CLAIM_STALE_MS with
  | none =>
    refine ⟨nofun, fun ⟨positive, bounded, _⟩ => ?_⟩
    rw [queueDelayDeadline_iff.mpr ⟨positive, bounded, rfl⟩] at deadline
    cases deadline
  | some notBefore =>
    obtain ⟨positive, bounded, rfl⟩ := queueDelayDeadline_iff.mp deadline
    simp only [positive, bounded, true_and]
    split
    · rename_i few
      rw [Option.some.injEq, eq_comm]
      exact (and_iff_right (Nat.lt_of_succ_le few)).symm
    · rename_i many
      exact ⟨nofun, fun ⟨few, _⟩ => absurd (Nat.succ_le_of_lt few) many⟩

/-- The replacement of a valid message is valid, except at the horizon itself. -/
theorem suspendedEnvelope_valid_iff {envelope replacement : NativeQueueEnvelope}
    {now timeoutSeconds attempt : Nat}
    (valid : envelope.Valid) (safe : attempt ≤ MAX_SAFE_INTEGER)
    (suspended : suspendedEnvelope envelope now timeoutSeconds attempt = some replacement) :
    replacement.Valid ↔ now + timeoutSeconds * 1000 ≠ suspensionHorizon := by
  obtain ⟨-, bounded, few, rfl⟩ := suspendedEnvelope_iff.mp suspended
  rw [suspensionHorizon_eq] at bounded ⊢
  unfold QUEUE_ALARM_EDGE_MS at bounded ⊢
  constructor
  · intro scheduled same
    have := scheduled.notBefore _ rfl
    omega
  · intro other
    exact { valid with
      notBefore := fun notBefore same => by
        cases same
        omega
      deliveryFailures := fun failures same => by
        cases same
        omega
      suspensionCount := fun count same => by
        cases same
        exact Nat.le_trans (Nat.succ_le_of_lt few) (by decide) }

namespace ConsumerTurn

/-- An envelope that the consumer publishes, with its broker delay. -/
def publication : Performed ConsumerEffect → Option (NativeQueueEnvelope × Nat)
  | ⟨.send envelope delaySeconds, _⟩ => some (envelope, delaySeconds)
  | _ => none

/-- An envelope that the consumer hands to the application. -/
def handed : Performed ConsumerEffect → Option NativeQueueEnvelope
  | ⟨.deliver _ envelope _, _⟩ => some envelope
  | _ => none

/-- A suspension answer, and the clock that the consumer reads after it. -/
def suspension : List (Performed ConsumerEffect) → Option (Nat × Nat)
  | ⟨.deliver _ _ _, .ok (.suspend timeoutSeconds)⟩ :: ⟨.now, now⟩ :: _ => some (timeoutSeconds, now)
  | _ :: rest => suspension rest
  | [] => none

end ConsumerTurn

/-- What a turn of the consumer does with a valid message when it runs to its end. -/
inductive CompletedTurn (env : QueueConsumerEnv) (envelope : NativeQueueEnvelope) (attempts : Nat) :
    List (Performed ConsumerEffect) → Prop
  | continued {now deadline : Nat} {answer : Except Thrown Unit} {last : ConsumerEffect Unit} :
      envelope.notBefore = some deadline → now < deadline → (last = .ack ∨ ∃ delay, last = .retry delay) →
      CompletedTurn env envelope attempts
        [⟨.now, now⟩, ⟨.send envelope (nativeQueueDelaySeconds envelope.notBefore now), answer⟩, ⟨last, ()⟩]
  | unsecured {now delay : Nat} : (∀ deadline ∈ envelope.notBefore, deadline ≤ now) →
      truthy env.WORLD_SECRET = none → CompletedTurn env envelope attempts [⟨.now, now⟩, ⟨.retry delay, ()⟩]
  | settled {now : Nat} {secret : String} {result : Except Thrown QueueDeliveryResult}
      {last : ConsumerEffect Unit} :
      (∀ deadline ∈ envelope.notBefore, deadline ≤ now) → truthy env.WORLD_SECRET = some secret →
      (last = .ack ∨ ∃ delay, last = .retry delay) → (∀ timeoutSeconds, result ≠ .ok (.suspend timeoutSeconds)) →
      CompletedTurn env envelope attempts
        [⟨.now, now⟩, ⟨.deliver secret envelope (envelope.deliveryFailures.getD 0 + attempts), result⟩,
          ⟨last, ()⟩]
  | refused {now later delay timeoutSeconds : Nat} {secret : String} :
      (∀ deadline ∈ envelope.notBefore, deadline ≤ now) → truthy env.WORLD_SECRET = some secret →
      suspendedEnvelope envelope later timeoutSeconds (envelope.deliveryFailures.getD 0 + attempts) = none →
      CompletedTurn env envelope attempts
        [⟨.now, now⟩,
         ⟨.deliver secret envelope (envelope.deliveryFailures.getD 0 + attempts), .ok (.suspend timeoutSeconds)⟩,
         ⟨.now, later⟩, ⟨.retry delay, ()⟩]
  | suspended {now later sentAt timeoutSeconds : Nat} {secret : String} {replacement : NativeQueueEnvelope}
      {answer : Except Thrown Unit} {last : ConsumerEffect Unit} :
      (∀ deadline ∈ envelope.notBefore, deadline ≤ now) → truthy env.WORLD_SECRET = some secret →
      (last = .ack ∨ ∃ delay, last = .retry delay) →
      suspendedEnvelope envelope later timeoutSeconds (envelope.deliveryFailures.getD 0 + attempts) =
        some replacement →
      CompletedTurn env envelope attempts
        [⟨.now, now⟩,
         ⟨.deliver secret envelope (envelope.deliveryFailures.getD 0 + attempts), .ok (.suspend timeoutSeconds)⟩,
         ⟨.now, later⟩, ⟨.now, sentAt⟩,
         ⟨.send replacement (nativeQueueDelaySeconds replacement.notBefore sentAt), answer⟩, ⟨last, ()⟩]

section
variable {env : QueueConsumerEnv} {envelope : NativeQueueEnvelope} {attempts : Nat}
variable {trace : List (Performed ConsumerEffect)} {outcome : Except Thrown Unit}

theorem emits_first {α : Type} {op : ConsumerEffect α} {next : α → ConsumerProgram Unit}
    (emits : ((Prog.perform op).bind next).Emits trace (some outcome)) :
    ∃ answer rest, trace = ⟨op, answer⟩ :: rest ∧ (next answer).Emits rest (some outcome) := by
  rcases emits with ⟨-, same⟩ | goes
  · cases same
  · exact goes

theorem emits_only {op : ConsumerEffect Unit}
    (emits : (Prog.perform op : ConsumerProgram Unit).Emits trace (some outcome)) :
    trace = [⟨op, ()⟩] := by
  obtain ⟨answer, rfl, -⟩ := Prog.emits_perform emits
  rfl

theorem replaceMessage_completes {replacement : NativeQueueEnvelope} {now attempt : Nat}
    (emits : (replaceMessage replacement now attempt).Emits trace (some outcome)) :
    ∃ answer last, (last = .ack ∨ ∃ delay, last = .retry delay) ∧
      trace = [⟨.send replacement (nativeQueueDelaySeconds replacement.notBefore now), answer⟩, ⟨last, ()⟩] := by
  obtain ⟨answer, rest, rfl, goes⟩ := emits_first emits
  cases answer with
  | ok sent =>
    obtain rfl := emits_only goes
    exact ⟨.ok sent, .ack, .inl rfl, rfl⟩
  | error error =>
    obtain rfl := emits_only goes
    exact ⟨.error error, _, .inr ⟨_, rfl⟩, rfl⟩

theorem consume_completes (valid : envelope.Valid)
    (emits : (consume { body := some envelope, attempts } env).Emits trace (some outcome)) :
    CompletedTurn env envelope attempts trace := by
  unfold consume at emits
  simp only [Option.map_some, validateNativeQueueEnvelope_iff.mpr valid] at emits
  obtain ⟨now, rest, rfl, goes⟩ := emits_first emits
  split at goes
  · rename_i waits
    obtain ⟨deadline, delayed, early⟩ := delayed_iff.mp waits
    obtain ⟨answer, last, answers, rfl⟩ := replaceMessage_completes goes
    exact .continued delayed early answers
  rename_i waits
  have due : ∀ deadline ∈ envelope.notBefore, deadline ≤ now := fun deadline delayed =>
    Nat.le_of_not_lt fun early => waits (delayed_iff.mpr ⟨deadline, delayed, early⟩)
  split at goes
  · rename_i unsecured
    obtain rfl := emits_only goes
    exact .unsecured due unsecured
  rename_i secret secured
  obtain ⟨result, rest, rfl, answered⟩ := emits_first goes
  clear goes emits
  match result with
  | .error error =>
    obtain rfl := emits_only answered
    exact .settled due secured (.inr ⟨_, rfl⟩) nofun
  | .ok .complete =>
    obtain rfl := emits_only answered
    exact .settled due secured (.inl rfl) nofun
  | .ok .retry =>
    obtain rfl := emits_only answered
    exact .settled due secured (.inr ⟨_, rfl⟩) nofun
  | .ok (.suspend timeoutSeconds) =>
    obtain ⟨later, rest, rfl, goes⟩ := emits_first answered
    clear answered
    split at goes
    · rename_i none_
      obtain rfl := emits_only goes
      exact .refused due secured none_
    · rename_i replacement some_
      obtain ⟨sentAt, rest, rfl, replaces⟩ := emits_first goes
      obtain ⟨answer, last, answers, rfl⟩ := replaceMessage_completes replaces
      exact .suspended due secured answers some_

end

/-- Continuations of a long delay: from a turn at `now`, `count` accepted publications of
the same envelope lead to a redelivery at `last`, each after the delay that was asked for. -/
inductive Continued (env : QueueConsumerEnv) (envelope : NativeQueueEnvelope) : Nat → Nat → Nat → Prop
  | arrived (now : Nat) : Continued env envelope now 0 now
  | next {now later delaySeconds count last attempts : Nat} {rest : List (Performed ConsumerEffect)}
      {outcome : Except Thrown Unit}
      (turn : (consume { body := some envelope, attempts } env).Emits (⟨.now, now⟩ :: rest) (some outcome))
      (sent : (⟨.send envelope delaySeconds, .ok ()⟩ : Performed ConsumerEffect) ∈ rest)
      (waited : now + delaySeconds * 1000 ≤ later) (continues : Continued env envelope later count last) :
      Continued env envelope now (count + 1) last

/-- The envelope reaches its delivery: before its deadline a turn publishes it again, at
most once for each day that is left, and from its deadline on a turn hands it over. -/
structure Arrives (env : QueueConsumerEnv) (envelope : NativeQueueEnvelope) : Prop where
  continues : ∀ attempts now rest outcome,
    (consume { body := some envelope, attempts } env).Emits (⟨.now, now⟩ :: rest) (some outcome) →
    ∀ deadline ∈ envelope.notBefore, now < deadline →
      ∃ performed ∈ rest, ∃ delaySeconds, ConsumerTurn.publication performed = some (envelope, delaySeconds)
  finite : ∀ now count last, Continued env envelope now count last → ∀ deadline ∈ envelope.notBefore,
    count ≠ 0 → count * (NATIVE_QUEUE_MAX_DELAY_SECONDS * 1000) <
      deadline - now + NATIVE_QUEUE_MAX_DELAY_SECONDS * 1000
  hands : ∀ attempts now rest outcome secret,
    (consume { body := some envelope, attempts } env).Emits (⟨.now, now⟩ :: rest) (some outcome) →
    truthy env.WORLD_SECRET = some secret → (∀ deadline ∈ envelope.notBefore, deadline ≤ now) →
      ∃ performed ∈ rest, ConsumerTurn.handed performed = some envelope

/-- What a turn publishes is valid on redelivery, asks for a delay that the broker takes
and reaches its delivery; what it hands over is due by the clock that it read before. -/
structure NeverEarly (env : QueueConsumerEnv) (trace : List (Performed ConsumerEffect)) : Prop where
  valid : ∀ performed ∈ trace, ∀ sent delaySeconds,
    ConsumerTurn.publication performed = some (sent, delaySeconds) → validateNativeQueueEnvelope sent = .ok sent
  delay : ∀ performed ∈ trace, ∀ sent delaySeconds,
    ConsumerTurn.publication performed = some (sent, delaySeconds) → delaySeconds ≤ NATIVE_QUEUE_MAX_DELAY_SECONDS
  arrives : ∀ performed ∈ trace, ∀ sent delaySeconds,
    ConsumerTurn.publication performed = some (sent, delaySeconds) → Arrives env sent
  due : ∀ before performed after, trace = before ++ performed :: after → ∀ envelope,
    ConsumerTurn.handed performed = some envelope →
      ∃ now ∈ before.filterMap ConsumerTurn.reading, ∀ deadline ∈ envelope.notBefore, deadline ≤ now

/-- The answer is one that `deliverQueueMessage` can return, or the call failed. -/
def FromDelivery : Performed ConsumerEffect → Prop
  | ⟨.deliver secret envelope attempt, .ok result⟩ => ∃ C workerEnv trace,
      (deliverQueueMessage C workerEnv (some secret) envelope attempt).Emits trace (some (.ok result))
  | _ => True

/-- The suspension's deadline, by the consumer's clock, is the suspension horizon itself,
and the message may be suspended once more. -/
def AtHorizon (envelope : NativeQueueEnvelope) (trace : List (Performed ConsumerEffect)) : Prop :=
  ∃ timeoutSeconds now, ConsumerTurn.suspension trace = some (timeoutSeconds, now) ∧ 1 ≤ timeoutSeconds ∧
    envelope.suspensionCount.getD 0 < MAX_QUEUE_SUSPENSIONS ∧ now + timeoutSeconds * 1000 = suspensionHorizon

section
variable {env : QueueConsumerEnv} {envelope : NativeQueueEnvelope} {attempts : Nat}
variable {trace : List (Performed ConsumerEffect)} {outcome : Except Thrown Unit}

/-- A turn that publishes the same envelope again waits for its deadline, or for a day. -/
theorem delay_advances {deadline now : Nat} (early : now < deadline) :
    deadline ≤ now + nativeQueueDelaySeconds (some deadline) now * 1000 ∨
      nativeQueueDelaySeconds (some deadline) now = NATIVE_QUEUE_MAX_DELAY_SECONDS := by
  unfold nativeQueueDelaySeconds
  simp only [Nat.not_le.mpr early, if_false]
  omega

theorem nativeQueueDelaySeconds_le {notBefore : Option Nat} {now : Nat} :
    nativeQueueDelaySeconds notBefore now ≤ NATIVE_QUEUE_MAX_DELAY_SECONDS := by
  unfold nativeQueueDelaySeconds
  split
  · exact Nat.zero_le _
  · split
    · exact Nat.zero_le _
    · exact Nat.min_le_left _ _

/-- A turn publishes its own envelope before the deadline only. -/
theorem CompletedTurn.continues {now : Nat} {rest : List (Performed ConsumerEffect)}
    {performed : Performed ConsumerEffect}
    {delaySeconds : Nat} (turn : CompletedTurn env envelope attempts (⟨.now, now⟩ :: rest))
    (member : performed ∈ rest)
    (published : ConsumerTurn.publication performed = some (envelope, delaySeconds)) :
    ∃ deadline, envelope.notBefore = some deadline ∧ now < deadline ∧
      delaySeconds = nativeQueueDelaySeconds (some deadline) now := by
  cases turn with
  | continued scheduled early answers =>
    rcases List.mem_cons.mp member with rfl | member
    · cases published
      exact ⟨_, scheduled, early, by rw [scheduled]⟩
    · obtain rfl := List.mem_singleton.mp member
      rcases answers with rfl | ⟨_, rfl⟩ <;> cases published
  | unsecured =>
    obtain rfl := List.mem_singleton.mp member
    cases published
  | settled _ _ answers =>
    rcases List.mem_cons.mp member with rfl | member
    · cases published
    · obtain rfl := List.mem_singleton.mp member
      rcases answers with rfl | ⟨_, rfl⟩ <;> cases published
  | refused =>
    simp only [List.mem_cons, List.not_mem_nil, or_false] at member
    rcases member with rfl | rfl | rfl <;> cases published
  | suspended _ _ answers suspended =>
    simp only [List.mem_cons, List.not_mem_nil, or_false] at member
    rcases member with rfl | rfl | rfl | rfl | rfl
    · cases published
    · cases published
    · cases published
    · obtain ⟨same, -⟩ := Prod.mk.inj (Option.some.inj published)
      obtain ⟨-, -, -, replaced⟩ := suspendedEnvelope_iff.mp suspended
      -- the count of the replacement is one higher
      have counted := congrArg (·.suspensionCount) (replaced.symm.trans same)
      cases count : envelope.suspensionCount <;> simp [count] at counted
    · rcases answers with rfl | ⟨_, rfl⟩ <;> cases published

theorem chain_grows {count length now later deadline : Nat} (rest : count * length < deadline - later + length)
    (waited : now + length ≤ later) (early : later < deadline) :
    (count + 1) * length < deadline - now + length := by
  rw [Nat.succ_mul]
  omega

theorem Continued.finite (valid : envelope.Valid) {now count last deadline : Nat}
    (continued : Continued env envelope now count last) (scheduled : envelope.notBefore = some deadline)
    (some_ : count ≠ 0) :
    count * (NATIVE_QUEUE_MAX_DELAY_SECONDS * 1000) < deadline - now + NATIVE_QUEUE_MAX_DELAY_SECONDS * 1000 := by
  induction continued with
  | arrived now => exact absurd rfl some_
  | @next now later delaySeconds count last attempts rest outcome turn sent waited continues ih =>
    obtain ⟨deadline', scheduled', early, rfl⟩ := (consume_completes valid turn).continues sent rfl
    obtain rfl := Option.some.inj (scheduled.symm.trans scheduled')
    have room : now < deadline → deadline - now + NATIVE_QUEUE_MAX_DELAY_SECONDS * 1000 >
        NATIVE_QUEUE_MAX_DELAY_SECONDS * 1000 := fun early => Nat.lt_add_of_pos_left (Nat.sub_pos_of_lt early)
    by_cases more : count = 0
    · subst more
      rw [Nat.zero_add, Nat.one_mul]
      exact room early
    · have rest_ := ih more
      have open_ : later < deadline := Nat.lt_of_not_le fun passed => by
        rw [Nat.sub_eq_zero_of_le passed, Nat.zero_add] at rest_
        exact absurd rest_ (Nat.not_lt.mpr (Nat.le_mul_of_pos_left _ (Nat.pos_of_ne_zero more)))
      have day := (delay_advances early).resolve_left fun passed => by omega
      rw [day] at waited
      exact chain_grows rest_ waited open_

theorem arrives (valid : envelope.Valid) : Arrives env envelope where
  continues attempts now rest outcome turn deadline scheduled early := by
    cases consume_completes valid turn with
    | continued => exact ⟨_, .head _, _, rfl⟩
    | unsecured due | settled due | refused due | suspended due =>
      exact absurd (due deadline scheduled) (Nat.not_le.mpr early)
  finite now count last continued deadline scheduled some_ := continued.finite valid scheduled some_
  hands attempts now rest outcome secret turn secured due := by
    cases consume_completes valid turn with
    | continued scheduled early => exact absurd (due _ scheduled) (Nat.not_le.mpr early)
    | unsecured _ missing =>
      rw [secured] at missing
      cases missing
    | settled | refused | suspended => exact ⟨_, .head _, rfl⟩

/-- `deliverQueueMessage` answers for attempts that are safe integers only. -/
theorem deliverQueueMessage_attempt {C : QueueContract} {workerEnv : QueueWorkerEnv} {secret : Option String}
    {attempt : Nat} {inner : List (Performed QueueEffect)} {result : QueueDeliveryResult}
    (emits : (deliverQueueMessage C workerEnv secret envelope attempt).Emits inner (some (.ok result))) :
    attempt ≤ MAX_SAFE_INTEGER := by
  unfold deliverQueueMessage at emits
  split at emits
  · cases (Prog.emits_throw emits).2
  split at emits
  · cases (Prog.emits_throw emits).2
  split at emits
  · cases (Prog.emits_throw emits).2
  split at emits
  · cases (Prog.emits_throw emits).2
  · rename_i safe
    exact Nat.le_of_not_lt fun unsafe_ => safe (.inr unsafe_)

/-- A turn publishes its own envelope, or the replacement of a suspended one. -/
theorem CompletedTurn.publishes {performed : Performed ConsumerEffect} {sent : NativeQueueEnvelope}
    {delaySeconds : Nat}
    (turn : CompletedTurn env envelope attempts trace) (member : performed ∈ trace)
    (published : ConsumerTurn.publication performed = some (sent, delaySeconds)) :
    (∃ now, delaySeconds = nativeQueueDelaySeconds sent.notBefore now) ∧
      (sent = envelope ∨ ∃ secret timeoutSeconds now,
        (⟨.deliver secret envelope (envelope.deliveryFailures.getD 0 + attempts), .ok (.suspend timeoutSeconds)⟩ :
          Performed ConsumerEffect) ∈ trace ∧
        ConsumerTurn.suspension trace = some (timeoutSeconds, now) ∧
        suspendedEnvelope envelope now timeoutSeconds (envelope.deliveryFailures.getD 0 + attempts) =
          some sent) := by
  cases turn with
  | continued _ _ answers =>
    simp only [List.mem_cons, List.not_mem_nil, or_false] at member
    rcases member with rfl | rfl | rfl
    · cases published
    · cases published
      exact ⟨⟨_, rfl⟩, .inl rfl⟩
    · rcases answers with rfl | ⟨_, rfl⟩ <;> cases published
  | unsecured =>
    simp only [List.mem_cons, List.not_mem_nil, or_false] at member
    rcases member with rfl | rfl <;> cases published
  | settled _ _ answers =>
    simp only [List.mem_cons, List.not_mem_nil, or_false] at member
    rcases member with rfl | rfl | rfl
    · cases published
    · cases published
    · rcases answers with rfl | ⟨_, rfl⟩ <;> cases published
  | refused =>
    simp only [List.mem_cons, List.not_mem_nil, or_false] at member
    rcases member with rfl | rfl | rfl | rfl <;> cases published
  | suspended _ _ answers suspended =>
    simp only [List.mem_cons, List.not_mem_nil, or_false] at member
    rcases member with rfl | rfl | rfl | rfl | rfl | rfl
    · cases published
    · cases published
    · cases published
    · cases published
    · obtain ⟨rfl, rfl⟩ := Prod.mk.inj (Option.some.inj published)
      exact ⟨⟨_, rfl⟩, .inr ⟨_, _, _, .tail _ (.head _), rfl, suspended⟩⟩
    · rcases answers with rfl | ⟨_, rfl⟩ <;> cases published

/-- A turn reads the clock first, and hands over its own envelope when that is due. -/
theorem CompletedTurn.hands (turn : CompletedTurn env envelope attempts trace) :
    ∃ now rest, trace = ⟨.now, now⟩ :: rest ∧ ∀ performed ∈ rest, ∀ handed,
      ConsumerTurn.handed performed = some handed → ∀ deadline ∈ handed.notBefore, deadline ≤ now := by
  cases turn with
  | continued _ _ answers =>
    refine ⟨_, _, rfl, fun performed member handed hands => ?_⟩
    simp only [List.mem_cons, List.not_mem_nil, or_false] at member
    rcases member with rfl | rfl
    · cases hands
    · rcases answers with rfl | ⟨_, rfl⟩ <;> cases hands
  | unsecured =>
    refine ⟨_, _, rfl, fun performed member handed hands => ?_⟩
    obtain rfl := List.mem_singleton.mp member
    cases hands
  | settled due _ answers =>
    refine ⟨_, _, rfl, fun performed member handed hands => ?_⟩
    simp only [List.mem_cons, List.not_mem_nil, or_false] at member
    rcases member with rfl | rfl
    · cases hands
      exact due
    · rcases answers with rfl | ⟨_, rfl⟩ <;> cases hands
  | refused due =>
    refine ⟨_, _, rfl, fun performed member handed hands => ?_⟩
    simp only [List.mem_cons, List.not_mem_nil, or_false] at member
    rcases member with rfl | rfl | rfl <;> cases hands
    exact due
  | suspended due _ answers =>
    refine ⟨_, _, rfl, fun performed member handed hands => ?_⟩
    simp only [List.mem_cons, List.not_mem_nil, or_false] at member
    rcases member with rfl | rfl | rfl | rfl | rfl
    · cases hands
      exact due
    · cases hands
    · cases hands
    · cases hands
    · rcases answers with rfl | ⟨_, rfl⟩ <;> cases hands

/-- Where what is published is valid, the rest follows. -/
theorem CompletedTurn.neverEarly (turn : CompletedTurn env envelope attempts trace)
    (valid : ∀ performed ∈ trace, ∀ sent delaySeconds,
      ConsumerTurn.publication performed = some (sent, delaySeconds) → sent.Valid) : NeverEarly env trace where
  valid performed member sent delaySeconds published :=
    validateNativeQueueEnvelope_iff.mpr (valid performed member sent delaySeconds published)
  arrives performed member sent delaySeconds published :=
    CelldWorld.arrives (valid performed member sent delaySeconds published)
  delay performed member sent delaySeconds published := by
    obtain ⟨⟨now, rfl⟩, -⟩ := turn.publishes member published
    exact nativeQueueDelaySeconds_le
  due before performed after split envelope handed := by
    obtain ⟨now, rest, rfl, hands⟩ := turn.hands
    cases before with
    | nil =>
      obtain rfl := (List.cons.inj split).1
      cases handed
    | cons first before =>
      obtain ⟨rfl, same⟩ := List.cons.inj split
      exact ⟨now, .head _, hands performed (by simp [same]) envelope handed⟩

/-- What the consumer republishes is a valid, never-early envelope that reaches its
delivery, except where a suspension ends at the suspension horizon itself. -/
theorem consume_neverEarly_iff (accepted : validateNativeQueueEnvelope envelope = .ok envelope)
    (turn : (consume { body := some envelope, attempts } env).Emits trace (some outcome))
    (answered : ∀ performed ∈ trace, FromDelivery performed) :
    NeverEarly env trace ↔ ¬ AtHorizon envelope trace := by
  have valid := validateNativeQueueEnvelope_iff.mp accepted
  have completed := consume_completes valid turn
  have safe {secret : String} {timeoutSeconds : Nat}
      (member : (⟨.deliver secret envelope (envelope.deliveryFailures.getD 0 + attempts),
        .ok (.suspend timeoutSeconds)⟩ :
        Performed ConsumerEffect) ∈ trace) : envelope.deliveryFailures.getD 0 + attempts ≤ MAX_SAFE_INTEGER := by
    obtain ⟨C, workerEnv, inner, emits⟩ := answered _ member
    exact deliverQueueMessage_attempt emits
  constructor
  · rintro neverEarly ⟨timeoutSeconds, now, suspension, positive, few, horizon⟩
    cases completed with
    | continued _ _ answers => rcases answers with rfl | ⟨_, rfl⟩ <;> cases suspension
    | unsecured => cases suspension
    | @settled _ _ result _ _ _ answers unsuspended =>
      match result with
      | .ok (.suspend timeoutSeconds) => exact unsuspended timeoutSeconds rfl
      | .error _ | .ok .complete | .ok .retry => rcases answers with rfl | ⟨_, rfl⟩ <;> cases suspension
    | refused _ _ none_ =>
      obtain ⟨rfl, rfl⟩ := Prod.mk.inj (Option.some.inj suspension)
      rw [suspendedEnvelope_iff.mpr ⟨positive, Nat.le_of_eq horizon, few, rfl⟩] at none_
      cases none_
    | suspended _ _ answers suspended =>
      obtain ⟨rfl, rfl⟩ := Prod.mk.inj (Option.some.inj suspension)
      have invalid := neverEarly.valid _ (.tail _ (.tail _ (.tail _ (.tail _ (.head _))))) _ _ rfl
      exact (suspendedEnvelope_valid_iff valid (safe (.tail _ (.head _))) suspended).mp
        (validateNativeQueueEnvelope_iff.mp invalid) horizon
  · intro inside
    refine completed.neverEarly fun performed member sent delaySeconds published => ?_
    obtain ⟨-, rfl | ⟨secret, timeoutSeconds, now, delivered, suspension, suspended⟩⟩ :=
      completed.publishes member published
    · exact valid
    · refine (suspendedEnvelope_valid_iff valid (safe delivered) suspended).mpr fun horizon => inside ?_
      obtain ⟨positive, -, few, -⟩ := suspendedEnvelope_iff.mp suspended
      exact ⟨timeoutSeconds, now, suspension, positive, few, horizon⟩

end

/-- An inline message of the consumer's queue. -/
def inlineEnvelope : NativeQueueEnvelope :=
  { messageId := "message", queueName := "queue", targetBaseUrl := "http://app", body := some "body" }

theorem inlineEnvelope_valid : validateNativeQueueEnvelope inlineEnvelope = .ok inlineEnvelope := by
  rfl

/-- A delivery of that message, which the application suspends for a second. -/
theorem inlineEnvelope_suspends {now : Nat} (room : now + 1000 ≤ suspensionHorizon) :
    FromDelivery ⟨.deliver "secret" inlineEnvelope 1, .ok (.suspend 1)⟩ := by
  have deadline : queueDelayDeadline now (some 1) 1 QUEUE_CLAIM_STALE_MS = some (now + 1000) :=
    queueDelayDeadline_iff.mpr ⟨Nat.le_refl 1, room, rfl⟩
  let request : QueueCallbackRequest :=
    { url := ("http://app".dropSuffix "/").toString ++ "/.well-known/workflow/v1/flow"
      queueName := "queue", messageId := "message", attempt := 1, callbackSecret := none, body := some "body" }
  let callback : QueueCallback := ⟨503, .ok (some 1)⟩
  refine ⟨.plain, { WORLD_SECRET := some "secret" }, [⟨.fetch request, callback⟩, ⟨.now, now⟩], ?_⟩
  change (deliverEnvelope .plain { WORLD_SECRET := some "secret" } inlineEnvelope 1).Emits _ _
  refine .inr (.inl ⟨.ok callback, [⟨.fetch request, callback⟩], [⟨.now, now⟩], rfl,
    .inr ⟨callback, [], rfl, And.intro rfl (.inr rfl)⟩, ?_⟩)
  refine .inr ⟨now, [], rfl, ?_⟩
  simp only [Prog.bind, deadline]
  exact And.intro rfl (.inr rfl)

/-- The turn of the consumer that replaces it, all by one reading of the clock. -/
def suspendedTurn (now : Nat) : List (Performed ConsumerEffect) :=
  [⟨.now, now⟩, ⟨.deliver "secret" inlineEnvelope 1, .ok (.suspend 1)⟩, ⟨.now, now⟩, ⟨.now, now⟩,
    ⟨.send { inlineEnvelope with
        notBefore := some (now + 1000), deliveryFailures := some 0, suspensionCount := some 1 } 1, .ok ()⟩,
    ⟨.ack, ()⟩]

theorem suspendedTurn_emits {now : Nat} (room : now + 1000 ≤ suspensionHorizon) :
    (consume { body := some inlineEnvelope, attempts := 1 } { WORLD_SECRET := some "secret" }).Emits
      (suspendedTurn now) (some (.ok ())) := by
  have suspended : suspendedEnvelope inlineEnvelope now 1 1 = some { inlineEnvelope with
      notBefore := some (now + 1000), deliveryFailures := some 0, suspensionCount := some 1 } :=
    suspendedEnvelope_iff.mpr ⟨Nat.le_refl 1, room, by decide, rfl⟩
  have delay : nativeQueueDelaySeconds (some (now + 1000)) now = 1 := by
    unfold nativeQueueDelaySeconds
    simp only [show ¬ now + 1000 ≤ now by omega, if_false, Nat.add_sub_cancel_left]
    rfl
  unfold consume
  simp only [Option.map_some, inlineEnvelope_valid]
  refine .inr ⟨now, _, rfl, ?_⟩
  change Prog.Emits (deliverMessage "secret" inlineEnvelope 1) _ _
  refine .inr ⟨.ok (.suspend 1), _, rfl, .inr ⟨now, _, rfl, ?_⟩⟩
  simp only [Prog.bind, suspended]
  refine .inr ⟨now, _, rfl, ?_⟩
  exact .inr ⟨.ok (), [⟨.ack, ()⟩], by simp only [delay], .inr ⟨(), [], rfl, And.intro rfl (.inr rfl)⟩⟩

theorem suspendedTurn_answered {now : Nat} (room : now + 1000 ≤ suspensionHorizon) :
    ∀ performed ∈ suspendedTurn now, FromDelivery performed := by
  intro performed member
  simp only [suspendedTurn, List.mem_cons, List.not_mem_nil, or_false] at member
  rcases member with rfl | rfl | rfl | rfl | rfl | rfl
  · trivial
  · exact inlineEnvelope_suspends room
  · trivial
  · trivial
  · trivial
  · trivial

/-- Far from the horizon the suspended message goes on as it should. -/
theorem suspendedTurn_neverEarly : NeverEarly { WORLD_SECRET := some "secret" } (suspendedTurn 0) := by
  have room : 0 + 1000 ≤ suspensionHorizon := by decide
  refine (consume_neverEarly_iff inlineEnvelope_valid (suspendedTurn_emits room)
    (suspendedTurn_answered room)).mpr ?_
  rintro ⟨timeoutSeconds, now, suspension, -, -, horizon⟩
  obtain ⟨rfl, rfl⟩ := Prod.mk.inj (Option.some.inj suspension)
  revert horizon
  decide

/-- A suspension that ends at the horizon is accepted, and its envelope is not. -/
theorem suspendedTurn_undeliverable :
    (consume { body := some inlineEnvelope, attempts := 1 } { WORLD_SECRET := some "secret" }).Emits
        (suspendedTurn (suspensionHorizon - 1000)) (some (.ok ())) ∧
      (∀ performed ∈ suspendedTurn (suspensionHorizon - 1000), FromDelivery performed) ∧
      ¬ NeverEarly { WORLD_SECRET := some "secret" } (suspendedTurn (suspensionHorizon - 1000)) := by
  have room : suspensionHorizon - 1000 + 1000 ≤ suspensionHorizon := by decide
  refine ⟨suspendedTurn_emits room, suspendedTurn_answered room, fun neverEarly => ?_⟩
  have accepted := neverEarly.valid _ (.tail _ (.tail _ (.tail _ (.tail _ (.head _))))) _ _ rfl
  have scheduled := (validateNativeQueueEnvelope_iff.mp accepted).notBefore _ rfl
  revert scheduled
  decide

end CelldWorld
