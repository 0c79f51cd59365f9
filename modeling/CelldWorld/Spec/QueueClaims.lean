import CelldWorld.RunQueue

namespace CelldWorld

/-- A call to the idempotency claim of one key, whichever cell keeps it. -/
inductive QueueClaimCall
  | reserve (messageId : String) (expiresAt : Nat) (publicationPending : Bool)
  | confirmPublication (messageId : String) (expiresAt : Nat)
  | claim (messageId : String) (staleMs : Nat)
  | hold (messageId : String) (retryAt expiresAt : Nat) (reservationExpiresAt : Option Nat)
  | release (messageId : String)
  | complete (messageId : String)
  | abandonReservation (messageId : String)
  deriving DecidableEq, Repr

inductive QueueClaimAnswer
  | reserved (admitted : Bool) (messageId : String) (publicationPending : Bool)
  | claimed (claimed : Bool) (retryAt : Option Nat)
  | held (held : Bool)
  | done
  /-- The call threw, or its run is expired or keeps no claims. -/
  | refused
  deriving DecidableEq, Repr

/-- What happens to a claim: calls, and the expiry of what has passed its deadline. -/
inductive QueueClaimEvent
  | call (call : QueueClaimCall) (answer : QueueClaimAnswer)
  | lapse
  deriving DecidableEq, Repr

namespace QueueClaimCall
variable (now : Nat) (state : RunQueueClaimState)

/-- The answer to a call and what it leaves of the claim. -/
def apply : QueueClaimCall → QueueClaimAnswer × RunQueueClaimState
  | .reserve messageId expiresAt publicationPending =>
    match state.reservation.filter fun existing => now < existing.expiresAt ∧
        (existing.messageId ≠ messageId ∨ publicationPending) with
    | some existing => (.reserved false existing.messageId existing.publicationPending, state)
    | none =>
      let reservation : QueueMessageReservation :=
        { messageId
          expiresAt := max ((state.reservation.map (·.expiresAt)).getD 0) expiresAt
          publicationPending }
      (.reserved true messageId false, { state with reservation := some reservation })
  | .confirmPublication messageId expiresAt =>
    (.done, { state with reservation := state.reservation.map fun reservation =>
      if reservation.messageId = messageId then { messageId, expiresAt := max reservation.expiresAt expiresAt }
      else reservation })
  | .claim messageId staleMs =>
    let proved := WorkflowRunDO.provePublication now messageId state
    match state.claim.filter (now < ·.expiresAt) with
    | none => (.claimed true none, { proved with claim := some { messageId, expiresAt := now + staleMs } })
    | some existing =>
      if existing.messageId ≠ messageId then (.claimed false none, proved)
      else if existing.retryAt.all (now < ·) then
        (.claimed false (some (existing.retryAt.getD existing.expiresAt)), proved)
      else (.claimed true none, { proved with claim := some { messageId, expiresAt := now + staleMs } })
  | .hold messageId retryAt expiresAt reservationExpiresAt =>
    match state.claim.filter (·.messageId = messageId) with
    | none => (.held false, state)
    | some existing => (.held true,
        { claim := some { existing with retryAt := some retryAt, expiresAt := max existing.expiresAt expiresAt }
          reservation := state.reservation.map fun reservation =>
            match reservationExpiresAt with
            | some expiresAt =>
              if reservation.messageId = messageId ∧ reservation.expiresAt < expiresAt then
                { reservation with expiresAt }
              else reservation
            | none => reservation })
  | .release messageId => (.done, { state with claim := state.claim.filter (·.messageId ≠ messageId) })
  | .complete messageId =>
    (.done, { reservation := state.reservation.filter (·.messageId ≠ messageId)
              claim := state.claim.filter (·.messageId ≠ messageId) })
  | .abandonReservation messageId =>
    (.done, { state with reservation := state.reservation.filter (·.messageId ≠ messageId) })

end QueueClaimCall

/-- Only a part that has passed its deadline is dropped. -/
def Lapsed {α : Type} (expired : α → Prop) (before after : Option α) : Prop :=
  after = before ∨ after = none ∧ ∀ part ∈ before, expired part

/-- One event of a claim. -/
inductive ClaimStep (now : Nat) : QueueClaimEvent → RunQueueClaimState → RunQueueClaimState → Prop
  | call {call : QueueClaimCall} {answer : QueueClaimAnswer} {before after : RunQueueClaimState} :
      call.apply now before = (answer, after) → ClaimStep now (.call call answer) before after
  | refused {call : QueueClaimCall} {state : RunQueueClaimState} : ClaimStep now (.call call .refused) state state
  | lapse {before after : RunQueueClaimState} :
      Lapsed (fun claim : InflightClaim => claim.expiresAt ≤ now) before.claim after.claim →
      Lapsed (fun reservation : QueueMessageReservation => reservation.expiresAt ≤ now)
        before.reservation after.reservation → ClaimStep now .lapse before after

/-- Events of a claim in order, each with its time. -/
inductive ClaimRun {σ : Type} (step : Nat → QueueClaimEvent → σ → σ → Prop) (now : Nat) (state : σ) :
    List (Nat × QueueClaimEvent) → Nat → σ → Prop
  | start : ClaimRun step now state [] now state
  | next {trace : List (Nat × QueueClaimEvent)} {middle later : Nat} {event : QueueClaimEvent}
      {before after : σ} :
      ClaimRun step now state trace middle before → middle ≤ later → step later event before after →
      ClaimRun step now state (trace ++ [(later, event)]) later after

/-- How long a message was granted its claim. -/
structure QueueLease where
  expiresAt : Nat
  retryAt : Option Nat := none
  deriving DecidableEq, Repr

/-- The lease of a message after an event, by the answers that its deliveries got. -/
def QueueLease.next (messageId : String) (lease : QueueLease) : Nat × QueueClaimEvent → QueueLease
  | (now, .call (.claim message staleMs) (.claimed true _)) =>
    if message = messageId then { expiresAt := now + staleMs } else lease
  | (_, .call (.hold message retryAt expiresAt _) (.held true)) =>
    if message = messageId then { expiresAt := max lease.expiresAt expiresAt, retryAt := some retryAt } else lease
  | _ => lease

namespace QueueClaimEvent

/-- The message is released or completed. -/
def ends (messageId : String) : QueueClaimEvent → Bool
  | .call (.release message) _ | .call (.complete message) _ => message = messageId
  | _ => false

/-- The message is reserved or claimed. -/
def begins (messageId : String) : QueueClaimEvent → Bool
  | .call (.reserve message ..) _ | .call (.claim message _) _ => message = messageId
  | _ => false

end QueueClaimEvent

/-- A message has a part in the claim. -/
def RunQueueClaimState.names (state : RunQueueClaimState) (messageId : String) : Prop :=
  (∃ reservation ∈ state.reservation, reservation.messageId = messageId) ∨
    ∃ claim ∈ state.claim, claim.messageId = messageId

/-- No deadline of the claim is earlier than it was. -/
structure RunQueueClaimState.Extended (before after : RunQueueClaimState) : Prop where
  reservation : ∀ reservation ∈ before.reservation, ∃ next ∈ after.reservation,
    next.messageId = reservation.messageId ∧ reservation.expiresAt ≤ next.expiresAt
  claim : ∀ claim ∈ before.claim, ∃ next ∈ after.claim,
    next.messageId = claim.messageId ∧ claim.expiresAt ≤ next.expiresAt

/-- The lease of a message is the claim, or has passed and left the claim. -/
def RunQueueClaimState.Leases (now : Nat) (messageId : String) (lease : QueueLease)
    (state : RunQueueClaimState) : Prop :=
  state.claim = some { messageId, expiresAt := lease.expiresAt, retryAt := lease.retryAt } ∨
    lease.expiresAt ≤ now ∧ ∀ claim ∈ state.claim, claim.messageId ≠ messageId

namespace ClaimStep
variable {now later : Nat} {event : QueueClaimEvent} {before after : RunQueueClaimState} {message : String}

/-- A claim is granted unless it is live, to the same message again from its retry on. -/
theorem granted {staleMs : Nat} {retryAt : Option Nat}
    (step : ClaimStep now (.call (.claim message staleMs) (.claimed true retryAt)) before after) :
    after.claim = some { messageId := message, expiresAt := now + staleMs } ∧
      ∀ existing ∈ before.claim, now < existing.expiresAt →
        existing.messageId = message ∧ ∃ retry ∈ existing.retryAt, retry ≤ now := by
  cases step with
  | call applied =>
    simp only [QueueClaimCall.apply] at applied
    split at applied
    · rename_i free
      cases applied
      refine ⟨rfl, fun existing stored live => ?_⟩
      rw [Option.mem_def.mp stored, Option.filter_some_pos (by simpa using live)] at free
      cases free
    · rename_i claim live
      obtain ⟨stored, -⟩ := Option.filter_eq_some_iff.mp live
      split at applied
      · cases applied
      rename_i same
      split at applied
      · cases applied
      rename_i retried
      cases applied
      refine ⟨rfl, fun existing found unexpired => ?_⟩
      obtain rfl := Option.some.inj (stored.symm.trans found)
      refine ⟨Decidable.not_not.mp same, ?_⟩
      cases retry : claim.retryAt with
      | none => simp [retry] at retried
      | some retryAt => exact ⟨retryAt, rfl, by simpa [retry] using retried⟩

/-- A step of others, or of the message itself, keeps what is known of its lease. -/
theorem leases {lease : QueueLease} (step : ClaimStep later event before after) (forward : now ≤ later)
    (leased : before.Leases now message lease) (continues : event.ends message = false) :
    after.Leases later message (lease.next message (later, event)) := by
  have same (unchanged : after.claim = before.claim) : after.Leases later message lease := by
    unfold RunQueueClaimState.Leases at leased ⊢
    rw [unchanged]
    exact leased.imp_right fun passed => ⟨Nat.le_trans passed.1 forward, passed.2⟩
  have removed {other : String} (different : other ≠ message)
      (claim : after.claim = before.claim.filter (·.messageId ≠ other)) : after.Leases later message lease := by
    rcases leased with stored | passed
    · refine same ?_
      rw [claim, stored]
      exact Option.filter_some_pos (by simpa using different.symm)
    · refine .inr ⟨Nat.le_trans passed.1 forward, fun kept stored => ?_⟩
      rw [claim] at stored
      exact passed.2 kept (Option.filter_eq_some_iff.mp stored).1
  cases step with
  | @refused call =>
    have unchanged := same rfl
    cases call <;> exact unchanged
  | lapse claim reservation =>
    rcases claim with unchanged | ⟨none_left, expired⟩
    · exact same unchanged
    refine .inr ⟨?_, fun claim stored => by rw [none_left] at stored; cases stored⟩
    rcases leased with stored | passed
    · exact expired _ stored
    · exact Nat.le_trans passed.1 forward
  | @call call answer _ _ applied =>
  cases call with
  | reserve other expiresAt pending =>
    simp only [QueueClaimCall.apply] at applied
    split at applied
    · cases applied
      exact same rfl
    · cases applied
      exact same rfl
  | confirmPublication other expiresAt =>
    cases applied
    exact same rfl
  | claim other staleMs =>
    have grants (granted : answer = .claimed true none) : after.Leases later message
        (lease.next message (later, .call (.claim other staleMs) answer)) := by
      subst granted
      obtain ⟨claim, live⟩ := granted (.call applied)
      simp only [QueueLease.next]
      split
      · rename_i own
        exact .inl (own ▸ claim)
      · rename_i different
        refine .inr ⟨?_, fun next stored => ?_⟩
        · rcases leased with stored | passed
          · refine Nat.le_of_not_lt fun unexpired => different ?_
            exact (live _ stored unexpired).1.symm
          · exact Nat.le_trans passed.1 forward
        · rw [claim] at stored
          exact Option.some.inj stored ▸ different
    simp only [QueueClaimCall.apply] at applied
    split at applied
    · exact grants (congrArg Prod.fst applied).symm
    split at applied
    · cases applied
      exact same rfl
    split at applied
    · cases applied
      exact same rfl
    · exact grants (congrArg Prod.fst applied).symm
  | hold other retryAt expiresAt reservationExpiresAt =>
    simp only [QueueClaimCall.apply] at applied
    split at applied
    · cases applied
      exact same rfl
    rename_i existing own
    obtain ⟨stored, named⟩ := Option.filter_eq_some_iff.mp own
    simp only [decide_eq_true_eq] at named
    cases applied
    simp only [QueueLease.next]
    split
    · rename_i own
      rcases leased with leased | passed
      · obtain rfl := Option.some.inj (stored.symm.trans leased)
        exact .inl rfl
      · exact absurd (named.trans own) (passed.2 existing stored)
    · rename_i different
      rcases leased with leased | passed
      · obtain rfl := Option.some.inj (stored.symm.trans leased)
        exact absurd named.symm different
      · refine .inr ⟨Nat.le_trans passed.1 forward, fun next found => ?_⟩
        rw [← Option.some.inj found, named]
        exact different
  | release other =>
    cases applied
    exact removed (by simpa [QueueClaimEvent.ends] using continues) rfl
  | complete other =>
    cases applied
    exact removed (by simpa [QueueClaimEvent.ends] using continues) rfl
  | abandonReservation other =>
    cases applied
    exact same rfl

/-- A hold never shortens a claim or a reservation. -/
theorem extended {retryAt expiresAt : Nat} {reservationExpiresAt : Option Nat} {answer : QueueClaimAnswer}
    (step : ClaimStep now (.call (.hold message retryAt expiresAt reservationExpiresAt) answer) before after) :
    before.Extended after := by
  have unchanged : before.Extended before :=
    ⟨fun reservation stored => ⟨reservation, stored, rfl, Nat.le_refl _⟩,
      fun claim stored => ⟨claim, stored, rfl, Nat.le_refl _⟩⟩
  cases step with
  | refused => exact unchanged
  | call applied =>
    simp only [QueueClaimCall.apply] at applied
    split at applied
    · cases applied
      exact unchanged
    rename_i existing own
    obtain ⟨stored, -⟩ := Option.filter_eq_some_iff.mp own
    cases applied
    refine ⟨fun reservation found => ?_, fun claim found => ?_⟩
    · rw [Option.mem_def.mp found]
      cases reservationExpiresAt with
      | none => exact ⟨reservation, rfl, rfl, Nat.le_refl _⟩
      | some deadline =>
        refine ⟨_, rfl, ?_⟩
        simp only
        split
        · rename_i later
          exact ⟨rfl, Nat.le_of_lt later.2⟩
        · exact ⟨rfl, Nat.le_refl _⟩
    · obtain rfl := Option.some.inj (stored.symm.trans found)
      exact ⟨_, rfl, rfl, Nat.le_max_left _ _⟩

/-- A completion leaves nothing of its message. -/
theorem completed (step : ClaimStep now (.call (.complete message) .done) before after) :
    ¬ after.names message := by
  cases step with
  | call applied =>
    cases applied
    rintro (⟨reservation, stored, same⟩ | ⟨claim, stored, same⟩)
    · have kept := (Option.filter_eq_some_iff.mp stored).2
      simp [same] at kept
    · have kept := (Option.filter_eq_some_iff.mp stored).2
      simp [same] at kept

/-- Only its own reservation or claim gives a message a part again. -/
theorem unnamed (step : ClaimStep now event before after) (absent : ¬ before.names message)
    (late : event.begins message = false) : ¬ after.names message := by
  simp only [RunQueueClaimState.names, not_or, not_exists, not_and] at absent
  obtain ⟨reservations, claims⟩ := absent
  have parts (reservation : ∀ reservation ∈ after.reservation, reservation.messageId ≠ message)
      (claim : ∀ claim ∈ after.claim, claim.messageId ≠ message) : ¬ after.names message := by
    rintro (⟨named, stored, same⟩ | ⟨named, stored, same⟩)
    · exact reservation named stored same
    · exact claim named stored same
  cases step with
  | refused => exact parts reservations claims
  | lapse claim reservation =>
    refine parts (fun named stored => ?_) fun named stored => ?_
    · rcases reservation with same | ⟨dropped, -⟩
      · exact reservations named (same ▸ stored)
      · rw [dropped] at stored
        cases stored
    · rcases claim with same | ⟨dropped, -⟩
      · exact claims named (same ▸ stored)
      · rw [dropped] at stored
        cases stored
  | @call call answer _ _ applied =>
  cases call with
  | reserve other expiresAt pending =>
    have different : other ≠ message := by simpa [QueueClaimEvent.begins] using late
    simp only [QueueClaimCall.apply] at applied
    split at applied
    · cases applied
      exact parts reservations claims
    · cases applied
      refine parts (fun named stored => ?_) claims
      rw [← Option.some.inj stored]
      exact different
  | confirmPublication other expiresAt =>
    cases applied
    refine parts (fun named stored => ?_) claims
    obtain ⟨reservation, found, rfl⟩ := Option.map_eq_some_iff.mp stored
    split
    · rename_i same
      exact same ▸ reservations reservation found
    · exact reservations reservation found
  | claim other staleMs =>
    have different : other ≠ message := by simpa [QueueClaimEvent.begins] using late
    have proved : ∀ reservation ∈ (WorkflowRunDO.provePublication now other before).reservation,
        reservation.messageId ≠ message := by
      intro named stored
      obtain ⟨reservation, found, rfl⟩ := Option.map_eq_some_iff.mp stored
      split
      · exact different
      · exact reservations reservation found
    simp only [QueueClaimCall.apply] at applied
    split at applied
    · cases applied
      exact parts proved fun named stored => Option.some.inj stored ▸ different
    split at applied
    · cases applied
      exact parts proved claims
    split at applied
    · cases applied
      exact parts proved claims
    · cases applied
      exact parts proved fun named stored => Option.some.inj stored ▸ different
  | hold other retryAt expiresAt reservationExpiresAt =>
    simp only [QueueClaimCall.apply] at applied
    split at applied
    · cases applied
      exact parts reservations claims
    rename_i existing own
    obtain ⟨found, -⟩ := Option.filter_eq_some_iff.mp own
    cases applied
    refine parts (fun named stored => ?_) fun named stored => ?_
    · obtain ⟨reservation, kept, rfl⟩ := Option.map_eq_some_iff.mp stored
      have other := reservations reservation kept
      cases reservationExpiresAt with
      | none => exact other
      | some deadline =>
        simp only
        split
        · exact other
        · exact other
    · rw [← Option.some.inj stored]
      exact claims existing found
  | release other =>
    cases applied
    exact parts reservations fun named stored => claims named (Option.filter_eq_some_iff.mp stored).1
  | complete other =>
    cases applied
    exact parts (fun named stored => reservations named (Option.filter_eq_some_iff.mp stored).1)
      fun named stored => claims named (Option.filter_eq_some_iff.mp stored).1
  | abandonReservation other =>
    cases applied
    exact parts (fun named stored => reservations named (Option.filter_eq_some_iff.mp stored).1) claims

/-- A claim is refused for a live one: of another message, or of the message itself until
its retry or its end. -/
theorem refusedFor {staleMs : Nat} {retryAt : Option Nat}
    (step : ClaimStep now (.call (.claim message staleMs) (.claimed false retryAt)) before after) :
    ∃ existing, before.claim = some existing ∧ now < existing.expiresAt ∧ (existing.messageId = message →
      retryAt = some (existing.retryAt.getD existing.expiresAt) ∧
        now < existing.retryAt.getD existing.expiresAt) := by
  cases step with
  | call applied =>
    simp only [QueueClaimCall.apply] at applied
    split at applied
    · cases applied
    rename_i existing live
    obtain ⟨stored, unexpired⟩ := Option.filter_eq_some_iff.mp live
    simp only [decide_eq_true_eq] at unexpired
    refine ⟨existing, stored, unexpired, fun own => ?_⟩
    split at applied
    · rename_i other
      exact absurd own other
    split at applied
    · rename_i waiting
      cases applied
      refine ⟨rfl, ?_⟩
      cases retry : existing.retryAt with
      | none => exact unexpired
      | some retryAt => simpa [retry] using waiting
    · cases applied

/-- A reservation is admitted unless another message holds the key. -/
theorem reserved {expiresAt : Nat} {pending admitted existingPending : Bool} {existing : String}
    (step : ClaimStep now (.call (.reserve message expiresAt pending)
      (.reserved admitted existing existingPending))
      before after) :
    admitted = true ∨ ∃ reservation ∈ before.reservation, reservation.messageId = existing ∧
      now < reservation.expiresAt := by
  cases step with
  | call applied =>
    simp only [QueueClaimCall.apply] at applied
    split at applied
    · rename_i reservation live
      obtain ⟨stored, holds⟩ := Option.filter_eq_some_iff.mp live
      cases applied
      exact .inr ⟨reservation, stored, rfl, (by simpa using holds : _ ∧ _).1⟩
    · cases applied
      exact .inl rfl

end ClaimStep

/-- What a claim promises to the messages of its key, from any state and in any order of
the calls. From its grant on a message is alone, until it is released or completed or its
lease has passed, and is granted again only from its retry on. A hold shortens nothing.
Once a message is completed its late calls leave it out of the claim, so that the next
reservation is admitted unless another message holds the key. -/
structure QueueClaimSound {σ : Type} (step : Nat → QueueClaimEvent → σ → σ → Prop)
    (kept : σ → RunQueueClaimState) :
    Prop where
  exclusive {now later asked staleMs staleMs' : Nat} {before granted held after : σ} {message other : String}
      {retryAt retryAt' : Option Nat} {trace : List (Nat × QueueClaimEvent)} :
    step now (.call (.claim message staleMs) (.claimed true retryAt)) before granted →
    ClaimRun step now granted trace later held → (∀ event ∈ trace, event.2.ends message = false) → later ≤ asked →
    step asked (.call (.claim other staleMs') (.claimed true retryAt')) held after →
    asked < (trace.foldl (QueueLease.next message) { expiresAt := now + staleMs }).expiresAt →
    other = message ∧
      ∃ retry ∈ (trace.foldl (QueueLease.next message) { expiresAt := now + staleMs }).retryAt, retry ≤ asked
  extended {now retryAt expiresAt : Nat} {reservationExpiresAt : Option Nat} {message : String}
      {answer : QueueClaimAnswer} {before after : σ} :
    step now (.call (.hold message retryAt expiresAt reservationExpiresAt) answer) before after →
    (kept before).Extended (kept after)
  settled {now later : Nat} {before completed after : σ} {message : String}
    {trace : List (Nat × QueueClaimEvent)} :
    step now (.call (.complete message) .done) before completed → ClaimRun step now completed trace later after →
    (∀ event ∈ trace, event.2.begins message = false) → ¬ (kept after).names message ∧
      ∀ {asked expiresAt : Nat} {other existing : String} {pending admitted existingPending : Bool} {next : σ},
        step asked (.call (.reserve other expiresAt pending) (.reserved admitted existing existingPending))
          after next →
        admitted = true ∨ existing ≠ message ∧
          ∃ reservation ∈ (kept after).reservation, reservation.messageId = existing ∧
            asked < reservation.expiresAt

namespace ClaimRun
variable {σ : Type} {step : Nat → QueueClaimEvent → σ → σ → Prop}
    {kept : σ → RunQueueClaimState} {now later : Nat}
  {before after : σ} {trace : List (Nat × QueueClaimEvent)} {message : String}

theorem forward (run : ClaimRun step now before trace later after) : now ≤ later := by
  induction run with
  | start => exact Nat.le_refl _
  | next _ tick _ ih => exact Nat.le_trans ih tick

theorem leases (refines : ∀ {now event before after}, step now event before after →
    ClaimStep now event (kept before) (kept after))
    (run : ClaimRun step now before trace later after) (continues : ∀ event ∈ trace, event.2.ends message = false)
    {lease : QueueLease} (leased : (kept before).Leases now message lease) :
    (kept after).Leases later message (trace.foldl (QueueLease.next message) lease) := by
  induction run with
  | start => exact leased
  | next _ tick step ih =>
    have sofar := ih fun event member => continues event (List.mem_append_left _ member)
    rw [List.foldl_append]
    exact (refines step).leases tick sofar (continues _ (List.mem_append_right _ (.head _)))

theorem unnamed (refines : ∀ {now event before after}, step now event before after →
    ClaimStep now event (kept before) (kept after))
    (run : ClaimRun step now before trace later after) (late : ∀ event ∈ trace, event.2.begins message = false)
    (absent : ¬ (kept before).names message) : ¬ (kept after).names message := by
  induction run with
  | start => exact absent
  | next _ _ step ih =>
    have sofar := ih fun event member => late event (List.mem_append_left _ member)
    exact (refines step).unnamed sofar (late _ (List.mem_append_right _ (.head _)))

end ClaimRun

/-- Every implementation of the claim keeps its promises. -/
theorem QueueClaimSound.of_refines {σ : Type} {step : Nat → QueueClaimEvent → σ → σ → Prop}
    {kept : σ → RunQueueClaimState}
    (refines : ∀ {now event before after}, step now event before after →
      ClaimStep now event (kept before) (kept after)) :
    QueueClaimSound step kept where
  exclusive grant run continues tick again live := by
    have granted := (refines grant).granted.1
    have leased := @ClaimRun.leases _ _ kept _ _ _ _ _ _ @refines run continues ⟨_, none⟩ (.inl granted)
    have fresh := (refines again).granted.2
    rcases leased with stored | passed
    · exact (fresh _ stored live).imp Eq.symm id
    · omega
  extended hold := (refines hold).extended
  settled complete run late := by
    have absent := run.unnamed @refines late (refines complete).completed
    refine ⟨absent, fun reserve =>
      (refines reserve).reserved.imp_right fun ⟨reservation, stored, named, live⟩ => ?_⟩
    exact ⟨fun same => absent (.inl ⟨reservation, stored, named.trans same⟩), reservation, stored, named, live⟩

end CelldWorld
