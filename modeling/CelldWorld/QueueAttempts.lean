import CelldWorld.QueueConsumer

namespace CelldWorld

open Interleaving

/-- What the consumer did with one message that the broker handed to it, and whether the
history goes on with the envelope that it sent. -/
structure ConsumerTurn where
  trace : List (Performed ConsumerEffect)
  replaced : Bool

namespace ConsumerTurn

def reading : Performed ConsumerEffect → Option Nat
  | ⟨.now, now⟩ => some now
  | _ => none

/-- A call of `deliver`: its attempt number, and what it returned or threw. -/
def delivery : Performed ConsumerEffect → Option (Nat × Except Thrown QueueDeliveryResult)
  | ⟨.deliver _ _ attempt, result⟩ => some (attempt, result)
  | _ => none

/-- An envelope that the broker accepted. -/
def sent : Performed ConsumerEffect → Option NativeQueueEnvelope
  | ⟨.send envelope _, .ok _⟩ => some envelope
  | _ => none

def acks : Performed ConsumerEffect → Bool
  | ⟨.ack, _⟩ => true
  | _ => false

variable (turn : ConsumerTurn)

/-- The attempt number of the delivery that was made. -/
def attempt : Option Nat := (turn.trace.findSome? delivery).map (·.1)

/-- The delivery threw, or did not end in `complete` or an accepted suspension. -/
def failed : Bool :=
  match turn.trace.findSome? delivery with
  | none => false
  | some (_, .ok .complete) => false
  | some (_, .ok (.suspend _)) => (turn.trace.findSome? sent).isNone
  | some (_, .ok .retry) | some (_, .error _) => true

end ConsumerTurn

/-- The clock is read in order, between two times. -/
def Passes (now : Nat) (trace : List (Performed ConsumerEffect)) (later : Nat) : Prop :=
  (now :: (trace.filterMap ConsumerTurn.reading ++ [later])).Pairwise (· ≤ ·)

/-- The turns of one logical message, the latest first, and the copy that the broker hands
to the consumer next. Without an acknowledgement the copy comes again, whether the
consumer asked for that or stopped; an envelope that was sent starts a copy of its own. -/
inductive CopyHistory (env : QueueConsumerEnv) : Nat → List ConsumerTurn → Option NativeQueueMessage → Prop
  | published {envelope : NativeQueueEnvelope} {now : Nat} : envelope.deliveryFailures.getD 0 = 0 →
      CopyHistory env now [] (some { body := some envelope, attempts := 1 })
  | redelivered {now later : Nat} {turns : List ConsumerTurn} {message : NativeQueueMessage}
      {trace : List (Performed ConsumerEffect)} {ended : Option (Except Thrown Unit)} :
      CopyHistory env now turns (some message) → (consume message env).Emits trace ended →
        Passes now trace later →
      (∀ performed ∈ trace, ConsumerTurn.acks performed = false) →
      CopyHistory env later (⟨trace, false⟩ :: turns) (some { message with attempts := message.attempts + 1 })
  | replaced {now later : Nat} {turns : List ConsumerTurn} {message : NativeQueueMessage}
      {envelope : NativeQueueEnvelope}
      {trace : List (Performed ConsumerEffect)} {ended : Option (Except Thrown Unit)} :
      CopyHistory env now turns (some message) → (consume message env).Emits trace ended →
        Passes now trace later →
      trace.findSome? ConsumerTurn.sent = some envelope →
      CopyHistory env later (⟨trace, true⟩ :: turns) (some { body := some envelope, attempts := 1 })
  | completed {now later : Nat} {turns : List ConsumerTurn} {message : NativeQueueMessage}
      {trace : List (Performed ConsumerEffect)} {ended : Option (Except Thrown Unit)} :
      CopyHistory env now turns (some message) → (consume message env).Emits trace ended →
        Passes now trace later →
      (∃ performed ∈ trace, ConsumerTurn.acks performed = true) →
      CopyHistory env later (⟨trace, false⟩ :: turns) none

/-- Deliveries that failed. -/
def failures (turns : List ConsumerTurn) : Nat := turns.countP (·.failed)

/-- Every delivery has one more than the number of failed deliveries before it. -/
def Counted : List ConsumerTurn → Prop
  | [] => True
  | turn :: earlier => Counted earlier ∧ ∀ attempt ∈ turn.attempt, attempt = 1 + failures earlier

/-- The turns of the copy since it was sent that made no failed delivery. -/
def idle : List ConsumerTurn → Nat
  | [] => 0
  | turn :: earlier => if turn.replaced then 0 else if turn.failed then idle earlier else idle earlier + 1

/-- No copy is delivered that has come back without a failed delivery. -/
def Prompt : List ConsumerTurn → Prop
  | [] => True
  | turn :: earlier => Prompt earlier ∧ (turn.attempt.isSome → idle earlier = 0)

/-- What the consumer does with a message. -/
inductive TurnOf (message : NativeQueueMessage) (trace : List (Performed ConsumerEffect)) : Prop
  | silent : trace.findSome? ConsumerTurn.delivery = none → trace.findSome? ConsumerTurn.sent = none →
      TurnOf message trace
  | continued {envelope : NativeQueueEnvelope} {now notBefore : Nat} : message.body = some envelope →
      trace.findSome? ConsumerTurn.delivery = none → trace.findSome? ConsumerTurn.sent = some envelope →
      now ∈ trace.filterMap ConsumerTurn.reading → envelope.notBefore = some notBefore → now < notBefore →
      TurnOf message trace
  | delivered {envelope : NativeQueueEnvelope} {now : Nat} {result : Except Thrown QueueDeliveryResult} :
      message.body = some envelope →
      trace.findSome? ConsumerTurn.delivery = some (envelope.deliveryFailures.getD 0 + message.attempts, result) →
      now ∈ trace.filterMap ConsumerTurn.reading → (∀ notBefore ∈ envelope.notBefore, notBefore ≤ now) →
      (∀ replacement, trace.findSome? ConsumerTurn.sent = some replacement →
        (∃ timeoutSeconds, result = .ok (.suspend timeoutSeconds)) ∧
        replacement.deliveryFailures = some (envelope.deliveryFailures.getD 0 + message.attempts - 1)) →
      TurnOf message trace

variable {env : QueueConsumerEnv} {envelope : NativeQueueEnvelope} {message : NativeQueueMessage}
  {trace : List (Performed ConsumerEffect)} {ended : Option (Except Thrown Unit)}

theorem emits_step {α : Type} {op : ConsumerEffect α} {next : α → ConsumerProgram Unit}
    (emits : ((Prog.perform op).bind next).Emits trace ended) :
    trace = [] ∨ ∃ answer rest, trace = ⟨op, answer⟩ :: rest ∧ (next answer).Emits rest ended :=
  emits.imp_left And.left

theorem emits_last {op : ConsumerEffect Unit}
    (emits : (Prog.perform op : ConsumerProgram Unit).Emits trace ended) :
    trace = [] ∨ trace = [⟨op, ()⟩] := by
  rcases emits with ⟨rfl, -⟩ | ⟨answer, rest, rfl, rfl, -⟩
  · exact .inl rfl
  · exact .inr rfl

theorem retry_emits {delaySeconds : Nat}
    (emits : (Prog.perform (.retry delaySeconds) : ConsumerProgram Unit).Emits trace ended) :
    trace.findSome? ConsumerTurn.delivery = none ∧ trace.findSome? ConsumerTurn.sent = none := by
  rcases emits_last emits with rfl | rfl
  · exact ⟨rfl, rfl⟩
  · exact ⟨rfl, rfl⟩

theorem replaceMessage_emits {now attempt : Nat}
    (emits : (replaceMessage envelope now attempt).Emits trace ended) :
    trace.findSome? ConsumerTurn.delivery = none ∧
      (trace.findSome? ConsumerTurn.sent = none ∨ trace.findSome? ConsumerTurn.sent = some envelope) := by
  rcases emits_step emits with rfl | ⟨answer, rest, rfl, goes⟩
  · exact ⟨rfl, .inl rfl⟩
  cases answer with
  | ok sent =>
    rcases emits_last goes with rfl | rfl
    · exact ⟨rfl, .inr rfl⟩
    · exact ⟨rfl, .inr rfl⟩
  | error error => exact ⟨(retry_emits goes).1, .inl (retry_emits goes).2⟩

/-- A suspended message goes on with the failures before its delivery. -/
theorem suspendedEnvelope_failures {now timeoutSeconds attempt : Nat} {replacement : NativeQueueEnvelope}
    (suspended : suspendedEnvelope envelope now timeoutSeconds attempt = some replacement) :
    replacement.deliveryFailures = some (attempt - 1) := by
  unfold suspendedEnvelope at suspended
  simp only at suspended
  split at suspended
  · cases suspended
  split at suspended
  · cases suspended
    rfl
  · cases suspended

/-- After a delivery the consumer sends a replacement of a suspended message only. -/
theorem deliverMessage_emits {secret : String} {attempt : Nat}
    (emits : (deliverMessage secret envelope attempt).Emits trace ended) :
    trace = [] ∨ ∃ result, trace.findSome? ConsumerTurn.delivery = some (attempt, result) ∧
      ∀ replacement, trace.findSome? ConsumerTurn.sent = some replacement →
        (∃ timeoutSeconds, result = .ok (.suspend timeoutSeconds)) ∧
          replacement.deliveryFailures = some (attempt - 1) := by
  rcases emits_step emits with rfl | ⟨result, rest, rfl, goes⟩
  · exact .inl rfl
  refine .inr ⟨result, rfl, fun replacement sent => ?_⟩
  have unsent (quiet : rest.findSome? ConsumerTurn.sent = none) : rest.findSome? ConsumerTurn.sent ≠
      some replacement := by
    rw [quiet]
    exact nofun
  match result with
  | .error error => exact absurd sent (unsent (retry_emits goes).2)
  | .ok .complete =>
    rcases emits_last goes with rfl | rfl
    · cases sent
    · cases sent
  | .ok .retry => exact absurd sent (unsent (retry_emits goes).2)
  | .ok (.suspend timeoutSeconds) =>
    refine ⟨⟨timeoutSeconds, rfl⟩, ?_⟩
    rcases emits_step goes with rfl | ⟨now, rest, rfl, continues⟩
    · cases sent
    split at continues
    · exact absurd sent (unsent (retry_emits continues).2)
    · rename_i accepted suspended
      rcases emits_step continues with rfl | ⟨now, rest, rfl, replaces⟩
      · cases sent
      rcases (replaceMessage_emits replaces).2 with quiet | same
      · exact absurd sent (unsent quiet)
      · cases same.symm.trans sent
        exact suspendedEnvelope_failures suspended

theorem delayed_iff {notBefore : Option Nat} {now : Nat} :
    notBefore.any (now < ·) = true ↔ ∃ deadline, notBefore = some deadline ∧ now < deadline := by
  cases notBefore <;> simp

theorem consume_emits (emits : (consume message env).Emits trace ended) : TurnOf message trace := by
  unfold consume at emits
  split at emits
  · exact .silent (retry_emits emits).1 (retry_emits emits).2
  · exact .silent (retry_emits emits).1 (retry_emits emits).2
  rename_i envelope parsed
  obtain ⟨value, body, valid⟩ := Option.map_eq_some_iff.mp parsed
  obtain ⟨rfl, -⟩ := validateNativeQueueEnvelope_ok valid
  rcases emits_step emits with rfl | ⟨now, rest, rfl, goes⟩
  · exact .silent rfl rfl
  split at goes
  · rename_i waits
    obtain ⟨notBefore, delayed, later⟩ := delayed_iff.mp waits
    obtain ⟨undelivered, quiet | same⟩ := replaceMessage_emits goes
    · exact .silent undelivered quiet
    · exact .continued body undelivered same (.head _) delayed later
  · rename_i due
    split at goes
    · exact .silent (retry_emits goes).1 (retry_emits goes).2
    rcases deliverMessage_emits goes with rfl | ⟨result, delivered, replaced⟩
    · exact .silent rfl rfl
    · refine .delivered body delivered (.head _) (fun notBefore delayed =>
        Nat.le_of_not_lt fun later => due ?_) replaced
      exact delayed_iff.mpr ⟨notBefore, delayed, later⟩

/-- Where the next copy of a message stands after its turns: what it carries over, the
failed deliveries of the copy, and the turns without one. -/
structure Standing (now : Nat) (turns : List ConsumerTurn) (message : NativeQueueMessage) : Prop where
  attempts : ∃ current, message.attempts = 1 + current + idle turns ∧ ∀ envelope, message.body = some envelope →
    envelope.deliveryFailures.getD 0 + current = failures turns ∧
      (0 < current → ∀ notBefore ∈ envelope.notBefore, notBefore ≤ now)

theorem Passes.forward {now later reading : Nat} (passes : Passes now trace later)
    (read : reading ∈ trace.filterMap ConsumerTurn.reading) : now ≤ reading ∧ reading ≤ later := by
  obtain ⟨first, ordered⟩ := List.pairwise_cons.mp passes
  exact ⟨first reading (List.mem_append_left _ read),
    (List.pairwise_append.mp ordered).2.2 reading read later (.head _)⟩

theorem Passes.le {now later : Nat} (passes : Passes now trace later) : now ≤ later :=
  (List.pairwise_cons.mp passes).1 later (List.mem_append_right _ (.head _))

/-- The attempt number of a delivery, from where its copy stands. -/
theorem TurnOf.attempt {now : Nat} {turns : List ConsumerTurn} {replaced : Bool} {attempt : Nat}
    (turn : TurnOf message trace) (standing : Standing now turns message)
    (delivered : (⟨trace, replaced⟩ : ConsumerTurn).attempt = some attempt) :
    attempt = 1 + failures turns + idle turns := by
  unfold ConsumerTurn.attempt at delivered
  cases turn with
  | silent undelivered => simp [undelivered] at delivered
  | continued _ undelivered => simp [undelivered] at delivered
  | @delivered envelope _ result body made =>
    obtain ⟨current, attempts, carried⟩ := standing.attempts
    have failed := (carried envelope body).1
    simp only [made, Option.map_some, Option.some.injEq] at delivered
    omega

theorem unfailed_of_undelivered {replaced : Bool} (undelivered : trace.findSome? ConsumerTurn.delivery = none) :
    (⟨trace, replaced⟩ : ConsumerTurn).failed = false := by
  simp only [ConsumerTurn.failed, undelivered]

/-- A copy that comes back stands one turn further. -/
theorem Standing.redelivered {now later : Nat} {turns : List ConsumerTurn} (standing : Standing now turns message)
    (turn : TurnOf message trace) (passes : Passes now trace later) :
    Standing later (⟨trace, false⟩ :: turns) { message with attempts := message.attempts + 1 } := by
  obtain ⟨current, attempts, carried⟩ := standing.attempts
  have forward := passes.le
  by_cases failed : (⟨trace, false⟩ : ConsumerTurn).failed = true
  · refine ⟨current + 1, ?_, fun envelope body => ⟨?_, fun _ notBefore delayed => ?_⟩⟩
    · simp only [idle, failed, Bool.false_eq_true, if_false, if_true]
      omega
    · have sofar := (carried envelope body).1
      simp only [failures, List.countP_cons, failed, if_true] at sofar ⊢
      omega
    · cases turn with
      | silent undelivered => simp [unfailed_of_undelivered undelivered] at failed
      | continued _ undelivered => simp [unfailed_of_undelivered undelivered] at failed
      | @delivered _ reading _ body' _ read due =>
        obtain rfl := Option.some.inj (body.symm.trans body')
        exact Nat.le_trans (due notBefore delayed) (passes.forward read).2
  · refine ⟨current, ?_, fun envelope body => ⟨?_, fun positive notBefore delayed => ?_⟩⟩
    · simp only [idle, failed, Bool.false_eq_true, if_false]
      omega
    · have sofar := (carried envelope body).1
      simp only [failures, List.countP_cons, failed, Bool.false_eq_true, if_false] at sofar ⊢
      omega
    · exact Nat.le_trans ((carried envelope body).2 positive notBefore delayed) forward

/-- A copy that is sent starts with the failed deliveries so far. -/
theorem Standing.replaced {now later : Nat} {turns : List ConsumerTurn} {replacement : NativeQueueEnvelope}
    (standing : Standing now turns message) (turn : TurnOf message trace) (passes : Passes now trace later)
    (sent : trace.findSome? ConsumerTurn.sent = some replacement)
    (prompt : (⟨trace, true⟩ : ConsumerTurn).attempt.isSome → idle turns = 0) :
    Standing later (⟨trace, true⟩ :: turns) { body := some replacement, attempts := 1 } := by
  obtain ⟨current, attempts, carried⟩ := standing.attempts
  have carries (unfailed : (⟨trace, true⟩ : ConsumerTurn).failed = false)
      (sofar : replacement.deliveryFailures.getD 0 = failures turns) :
      Standing later (⟨trace, true⟩ :: turns) { body := some replacement, attempts := 1 } := by
    refine ⟨0, rfl, fun envelope body => ⟨?_, fun positive => absurd positive (Nat.lt_irrefl 0)⟩⟩
    cases body
    simp only [failures, List.countP_cons, unfailed, Bool.false_eq_true, if_false] at sofar ⊢
    omega
  cases turn with
  | silent _ unsent => cases unsent.symm.trans sent
  | @continued envelope reading notBefore body undelivered same read delayed waits =>
    obtain rfl := Option.some.inj (same.symm.trans sent)
    obtain ⟨sofar, due⟩ := carried envelope body
    refine carries (unfailed_of_undelivered undelivered) ?_
    -- A copy that was delivered once is due from then on.
    have first : current = 0 := by
      refine Nat.eq_zero_of_not_pos fun positive => ?_
      have passed := due positive notBefore delayed
      have read := (passes.forward read).1
      omega
    omega
  | @delivered envelope _ result body made _ _ replaced =>
    obtain ⟨⟨timeoutSeconds, rfl⟩, failures'⟩ := replaced replacement sent
    have sofar := (carried envelope body).1
    have first := prompt (by simp [ConsumerTurn.attempt, made])
    refine carries (by simp [ConsumerTurn.failed, made, sent]) ?_
    rw [failures', Option.getD_some]
    omega

/-- Without an idle turn, the next copy carries all failed deliveries so far. -/
theorem CopyHistory.standing {now : Nat} {turns : List ConsumerTurn} {next : Option NativeQueueMessage}
    (history : CopyHistory env now turns next) (prompt : Prompt turns) :
    ∀ message ∈ next, Standing now turns message := by
  induction history with
  | published unfailed =>
    rintro message ⟨⟩
    refine ⟨0, rfl, fun envelope body => ?_⟩
    cases body
    exact ⟨unfailed, fun positive => absurd positive (Nat.lt_irrefl 0)⟩
  | redelivered before emits passes unacked ih =>
    rintro message ⟨⟩
    exact (ih prompt.1 _ rfl).redelivered (consume_emits emits) passes
  | replaced before emits passes sent ih =>
    rintro message ⟨⟩
    exact (ih prompt.1 _ rfl).replaced (consume_emits emits) passes sent prompt.2
  | completed => nofun

/-- One more turn counts right just when it delivers no copy that came back idle. -/
theorem counted_cons_iff {now : Nat} {turns : List ConsumerTurn} {replaced : Bool}
    (history : CopyHistory env now turns (some message)) (emits : (consume message env).Emits trace ended)
    (sofar : Counted turns ↔ Prompt turns) :
    Counted (⟨trace, replaced⟩ :: turns) ↔ Prompt (⟨trace, replaced⟩ :: turns) := by
  simp only [Counted, Prompt, sofar]
  refine and_congr_right fun prompt => ?_
  have standing := history.standing prompt message rfl
  cases made : (⟨trace, replaced⟩ : ConsumerTurn).attempt with
  | none => exact ⟨fun _ some => (by cases some), fun _ attempt absent => (by cases absent)⟩
  | some attempt =>
    have number := (consume_emits emits).attempt standing made
    constructor
    · intro counted _
      have same := counted attempt rfl
      omega
    · rintro idle attempt ⟨⟩
      have fresh := idle rfl
      omega

/-- The attempt number counts failed deliveries as long as no copy is delivered that came
back without one. -/
theorem consumer_counts_iff {now : Nat} {turns : List ConsumerTurn} {next : Option NativeQueueMessage}
    (history : CopyHistory env now turns next) : Counted turns ↔ Prompt turns := by
  induction history with
  | published => exact Iff.rfl
  | redelivered before emits _ _ ih => exact counted_cons_iff before emits ih
  | replaced before emits _ _ ih => exact counted_cons_iff before emits ih
  | completed before emits _ _ ih => exact counted_cons_iff before emits ih

/-- A message that waits for one second. -/
def delayedEnvelope : NativeQueueEnvelope :=
  { messageId := "message", queueName := "queue", targetBaseUrl := "url", body := some "",
    notBefore := some 1000 }

/-- The consumer reads its clock, does one thing that fails, and asks for a retry. -/
def failedTurn {α : Type} (now : Nat) (op : ConsumerEffect (Except Thrown α)) (delaySeconds : Nat) :
    ConsumerTurn :=
  { trace := [⟨.now, now⟩, ⟨op, .error (.error "lost")⟩, ⟨.retry delaySeconds, ()⟩], replaced := false }

theorem delayed_consume (attempts : Nat) :
    consume { body := some delayedEnvelope, attempts } { WORLD_SECRET := some "secret" } =
    (Prog.perform .now).bind fun now =>
      if delayedEnvelope.notBefore.any (now < ·) then replaceMessage delayedEnvelope now attempts
      else deliverMessage "secret" delayedEnvelope attempts := by
  have valid : validateNativeQueueEnvelope delayedEnvelope = .ok delayedEnvelope := by decide +kernel
  simp only [consume, Option.map_some, valid]
  refine congrArg _ (funext fun now => ?_)
  split
  · rfl
  · rw [show delayedEnvelope.deliveryFailures.getD 0 + attempts = attempts from Nat.zero_add attempts]
    rfl

theorem continuation_fails :
    (consume { body := some delayedEnvelope, attempts := 1 } { WORLD_SECRET := some "secret" }).Emits
    (failedTurn 0 (.send delayedEnvelope 1) 2).trace (some (.ok ())) := by
  rw [delayed_consume]
  exact .inr ⟨_, _, rfl, .inr ⟨_, _, rfl, .inr ⟨_, _, rfl, rfl, .inr rfl⟩⟩⟩

theorem delivery_fails (attempts : Nat) :
    (consume { body := some delayedEnvelope, attempts } { WORLD_SECRET := some "secret" }).Emits
    (failedTurn 1000 (.deliver "secret" delayedEnvelope attempts) (backoffSeconds attempts)).trace
      (some (.ok ())) := by
  rw [delayed_consume]
  exact .inr ⟨_, _, rfl, .inr ⟨_, _, rfl, .inr ⟨_, _, rfl, rfl, .inr rfl⟩⟩⟩

theorem CopyHistory.failedTurn {α : Type} {earlier now delaySeconds : Nat} {turns : List ConsumerTurn}
    {op : ConsumerEffect (Except Thrown α)} (history : CopyHistory env earlier turns (some message))
    (tick : earlier ≤ now)
    (emits : (consume message env).Emits (failedTurn now op delaySeconds).trace (some (.ok ())))
    (unread : ConsumerTurn.reading ⟨op, .error (.error "lost")⟩ = none)
    (unacked : ConsumerTurn.acks ⟨op, .error (.error "lost")⟩ = false) :
    CopyHistory env now (CelldWorld.failedTurn now op delaySeconds :: turns)
      (some { message with attempts := message.attempts + 1 }) := by
  have readings : (CelldWorld.failedTurn now op delaySeconds).trace.filterMap ConsumerTurn.reading = [now] := by
    have first : ConsumerTurn.reading ⟨.now, now⟩ = some now := rfl
    have last : ConsumerTurn.reading ⟨.retry delaySeconds, ()⟩ = none := rfl
    simp only [CelldWorld.failedTurn, List.filterMap_cons, List.filterMap_nil, first, unread, last]
  refine .redelivered history emits ?_ fun performed member => ?_
  · change Passes earlier (CelldWorld.failedTurn now op delaySeconds).trace now
    unfold Passes
    rw [readings]
    simpa using tick
  · simp only [List.mem_cons, List.not_mem_nil, or_false] at member
    rcases member with rfl | rfl | rfl
    · rfl
    · exact unacked
    · rfl

/-- A delivery that fails is counted. -/
theorem consumer_counts_iff_once : Counted [failedTurn 1000 (.deliver "secret" delayedEnvelope 1) 2] :=
  (consumer_counts_iff (.failedTurn (.published rfl) (Nat.zero_le 1000) (delivery_fails 1) rfl rfl)).mpr
    ⟨trivial, fun _ => rfl⟩

/-- A long delay that could not be continued counts as a failed delivery, although
nothing was delivered. -/
theorem consumer_miscounts :
    ∃ turns next, CopyHistory { WORLD_SECRET := some "secret" } 1000 turns next ∧ ¬ Counted turns := by
  have waited := CopyHistory.failedTurn (.published rfl) (Nat.le_refl 0) continuation_fails rfl rfl
  have delivered := waited.failedTurn (Nat.zero_le 1000) (delivery_fails 2) rfl rfl
  refine ⟨_, _, delivered, fun counted => ?_⟩
  cases counted.2 2 rfl

end CelldWorld
