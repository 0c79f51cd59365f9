import CelldWorld.QueueExclusion

namespace CelldWorld

open QueueClaimCall

/-- One key whose claim is kept in both scopes, by a claim cell and by the cell of a run. -/
structure QueueTwin where
  cell : QueueCell
  run : RunStore

/-- The call brings a part of its message back to life that the run cell still has after
its deadline, and that the alarm of the claim cell has already deleted. -/
def QueueClaimCall.revives (now : Nat) (cell run : RunQueueClaimState) : QueueClaimCall → Prop
  | .confirmPublication messageId expiresAt =>
    now < expiresAt ∧ cell.reservation = none ∧ ∃ reservation ∈ run.reservation, reservation.messageId = messageId
  | .claim messageId _ =>
    cell.reservation = none ∧
      ∃ reservation ∈ run.reservation, reservation.messageId = messageId ∧ reservation.publicationPending = true
  | .hold messageId _ _ reservationExpiresAt =>
    (cell.claim = none ∧ ∃ claim ∈ run.claim, claim.messageId = messageId) ∨
      (∃ claim ∈ cell.claim, claim.messageId = messageId) ∧ (∃ deadline ∈ reservationExpiresAt, now < deadline) ∧
        cell.reservation = none ∧ ∃ reservation ∈ run.reservation, reservation.messageId = messageId
  | .reserve .. | .release _ | .complete _ | .abandonReservation _ => False

/-- The call finds the same claim in both scopes, as far as it can tell. -/
def QueueClaimCall.timely (now : Nat) (claimName : String) (call : QueueClaimCall) (twin : QueueTwin) : Prop :=
  ¬ call.revives now twin.cell.kept (twin.run.queueClaim claimName) ∧ call ≠ .complete ""

/-- The same calls to both scopes, with the answers of each, on a run that does not
expire. The alarm of the claim cell runs at any time from the one it is armed for on. -/
inductive QueueTwins (claimName : String) (allowed : Nat → QueueClaimCall → QueueTwin → Prop) :
    Nat → QueueTwin → List (QueueClaimAnswer × QueueClaimAnswer) → Prop
  | start {now : Nat} {run : RunStore} : run.queueClaims[claimName]? = none →
      QueueTwins claimName allowed now ⟨{}, run⟩ []
  | call {now later : Nat} {twin : QueueTwin} {answers : List (QueueClaimAnswer × QueueClaimAnswer)}
      {call : QueueClaimCall} {answer answer' : QueueClaimAnswer} {cell : QueueCell} {run : RunStore} :
      QueueTwins claimName allowed now twin answers → now ≤ later → twin.run.tombstoneFrom later = none →
      twin.run.queueClaimScope = some "run" → allowed later call twin →
      call.cellScoped later twin.cell = (answer, cell) →
        call.runScoped later claimName twin.run = (answer', run) →
      QueueTwins claimName allowed later ⟨cell, run⟩ (answers ++ [(answer, answer')])
  | alarm {now later due : Nat} {twin : QueueTwin} {answers : List (QueueClaimAnswer × QueueClaimAnswer)} :
      QueueTwins claimName allowed now twin answers → now ≤ later → twin.cell.alarm = some due → due ≤ later →
      QueueTwins claimName allowed later ⟨WorkflowRunDO.expireQueueClaims later twin.cell, twin.run⟩ answers
  | other {now : Nat} {twin : QueueTwin} {answers : List (QueueClaimAnswer × QueueClaimAnswer)} {run : RunStore} :
      QueueTwins claimName allowed now twin answers →
      run.queueClaims[claimName]? = twin.run.queueClaims[claimName]? →
      QueueTwins claimName allowed now ⟨twin.cell, run⟩ answers

/-- The run cell still has what the claim cell has, and may have parts that have passed
their deadline besides. -/
structure Lagging (now : Nat) (cell run : RunQueueClaimState) : Prop where
  claim : cell.claim = run.claim ∨ cell.claim = none ∧ ∃ claim ∈ run.claim, claim.expiresAt ≤ now
  reservation : cell.reservation = run.reservation ∨ ∃ reservation ∈ run.reservation,
    reservation.expiresAt ≤ now ∧
    ∀ earlier ∈ cell.reservation, earlier.expiresAt ≤ now ∧ earlier.messageId = reservation.messageId ∧
      earlier.publicationPending = reservation.publicationPending

namespace Lagging
variable {now later : Nat} {cell run : RunQueueClaimState}

theorem start : Lagging now {} {} := ⟨.inl rfl, .inl rfl⟩

theorem forward (lagging : Lagging now cell run) (tick : now ≤ later) : Lagging later cell run where
  claim := lagging.claim.imp_right fun ⟨absent, claim, stored, expired⟩ =>
    ⟨absent, claim, stored, Nat.le_trans expired tick⟩
  reservation := lagging.reservation.imp_right fun ⟨reservation, stored, expired, earlier⟩ =>
    ⟨reservation, stored, Nat.le_trans expired tick, fun other found =>
      ⟨Nat.le_trans (earlier other found).1 tick, (earlier other found).2⟩⟩

/-- The alarm deletes what has passed its deadline from the claim cell only. -/
theorem lapse (lagging : Lagging now cell run) : Lagging now
    { reservation := cell.reservation.filter (now < ·.expiresAt), claim :=
      cell.claim.filter (now < ·.expiresAt) } run := by
  constructor
  · cases claimed : cell.claim with
    | none =>
      have unchanged := lagging.claim
      rw [claimed] at unchanged
      exact unchanged
    | some claim =>
      rcases lagging.claim with same | absent
      · rcases @filter_lapsed now _ InflightClaim.expiresAt (some claim) with kept | dropped
        · exact .inl (kept.trans (claimed ▸ same))
        · exact .inr ⟨dropped.1, claim, by rw [← same, claimed]; rfl, dropped.2 claim rfl⟩
      · rw [claimed] at absent
        cases absent.1
  · cases reserved : cell.reservation with
    | none =>
      have unchanged := lagging.reservation
      rw [reserved] at unchanged
      exact unchanged
    | some earlier =>
      rcases @filter_lapsed now _ QueueMessageReservation.expiresAt (some earlier) with kept | dropped
      · have unchanged := lagging.reservation
        rw [reserved, ← kept] at unchanged
        exact unchanged
      · right
        rcases lagging.reservation with same | ⟨reservation, stored, expired, -⟩
        · refine ⟨earlier, by rw [← same, reserved]; rfl, dropped.2 earlier rfl, fun other found => ?_⟩
          rw [dropped.1] at found
          cases found
        · refine ⟨reservation, stored, expired, fun other found => ?_⟩
          rw [dropped.1] at found
          cases found

theorem filter_expired {α : Type} {part : Option α} {deadline : α → Nat} {p : α → Prop} [DecidablePred p]
    (expired : ∀ value ∈ part, deadline value ≤ now) :
    part.filter (fun value => now < deadline value ∧ p value) = none := by
  cases part with
  | none => rfl
  | some value =>
    have passed := expired value rfl
    exact Option.filter_some_neg (by simp; omega)

/-- A reservation that is made where another one has passed its deadline. -/
theorem reserve {messageId : String} {expiresAt : Nat} {pending : Bool} (lagging : Lagging now cell run) :
    (apply now cell (.reserve messageId expiresAt pending)).1 =
      (apply now run (.reserve messageId expiresAt pending)).1 ∧
      Lagging now (apply now cell (.reserve messageId expiresAt pending)).2
        (apply now run (.reserve messageId expiresAt pending)).2 := by
  rcases lagging.reservation with same | ⟨reservation, stored, expired, earlier⟩
  · simp only [apply, same]
    split
    · exact ⟨rfl, lagging⟩
    · exact ⟨rfl, lagging.claim, .inl rfl⟩
  · have run_free := @filter_expired now _ run.reservation QueueMessageReservation.expiresAt
      (fun existing => existing.messageId ≠ messageId ∨ pending = true) _ fun value found => by
        rw [← Option.some.inj (stored.symm.trans found)]
        exact expired
    have cell_free := @filter_expired now _ cell.reservation QueueMessageReservation.expiresAt
      (fun existing => existing.messageId ≠ messageId ∨ pending = true) _ fun value found =>
        (earlier value found).1
    simp only [apply, run_free, cell_free]
    refine ⟨trivial, lagging.claim, ?_⟩
    have bound : (cell.reservation.map (·.expiresAt)).getD 0 ≤ now := by
      cases found : cell.reservation with
      | none => exact Nat.zero_le _
      | some other => exact (earlier other found).1
    have bound' : (run.reservation.map (·.expiresAt)).getD 0 ≤ now := by
      rw [Option.mem_def.mp stored]
      exact expired
    by_cases live : now < expiresAt
    · left
      rw [Nat.max_eq_right (by omega), Nat.max_eq_right (by omega)]
    · refine .inr ⟨_, rfl, Nat.max_le.mpr ⟨bound', by omega⟩, fun other found => ?_⟩
      rw [← Option.some.inj found]
      exact ⟨Nat.max_le.mpr ⟨bound, by omega⟩, rfl, rfl⟩

/-- A new deadline is the same in both scopes, unless only the run cell has the reservation. -/
theorem renew {renew : QueueMessageReservation → QueueMessageReservation} (lagging : Lagging now cell run)
    (alone : cell.reservation = none → ∀ reservation ∈ run.reservation, reservation.expiresAt ≤ now →
      (renew reservation).expiresAt ≤ now)
    (alike : ∀ earlier reservation : QueueMessageReservation, earlier.expiresAt ≤ now →
      reservation.expiresAt ≤ now →
      earlier.messageId = reservation.messageId → earlier.publicationPending = reservation.publicationPending →
      renew earlier = renew reservation ∨ (renew reservation).expiresAt ≤ now ∧ (renew earlier).expiresAt ≤ now ∧
        (renew earlier).messageId = (renew reservation).messageId ∧
        (renew earlier).publicationPending = (renew reservation).publicationPending) :
    Lagging now { cell with reservation := cell.reservation.map renew }
      { run with reservation := run.reservation.map renew } := by
  refine ⟨lagging.claim, ?_⟩
  rcases lagging.reservation with same | ⟨reservation, stored, expired, both⟩
  · exact .inl (by simp only [same])
  cases found : cell.reservation with
  | none =>
    refine .inr ⟨renew reservation, Option.map_eq_some_iff.mpr ⟨reservation, stored, rfl⟩,
      alone found reservation stored expired, fun other absent => ?_⟩
    cases absent
  | some earlier =>
    obtain ⟨passed, named, pending⟩ := both earlier found
    rcases alike earlier reservation passed expired named pending with same | ⟨expired, passed, named, pending⟩
    · left
      rw [Option.mem_def.mp stored, Option.map_some, Option.map_some, same]
    · refine .inr ⟨renew reservation, Option.map_eq_some_iff.mpr ⟨reservation, stored, rfl⟩, expired,
        fun other found => ?_⟩
      rw [← Option.some.inj found]
      exact ⟨passed, named, pending⟩

theorem confirmPublication {messageId : String} {expiresAt : Nat} (lagging : Lagging now cell run)
    (timely : ¬ revives now cell run (.confirmPublication messageId expiresAt)) :
    Lagging now (apply now cell (.confirmPublication messageId expiresAt)).2
      (apply now run (.confirmPublication messageId expiresAt)).2 := by
  refine lagging.renew (fun absent reservation stored expired => ?_)
    fun earlier reservation passed expired named pending => ?_
  · split
    · rename_i own
      refine Nat.max_le.mpr ⟨expired, Nat.le_of_not_lt fun live =>
        timely ⟨live, absent, reservation, stored, own⟩⟩
    · exact expired
  · rw [named]
    split
    · by_cases live : now < expiresAt
      · left
        rw [Nat.max_eq_right (by omega), Nat.max_eq_right (by omega)]
      · exact .inr ⟨Nat.max_le.mpr ⟨expired, by omega⟩, Nat.max_le.mpr ⟨passed, by omega⟩, rfl, rfl⟩
    · exact .inr ⟨expired, passed, named, pending⟩

theorem provePublication {messageId : String} (lagging : Lagging now cell run)
    (timely : ∀ staleMs, ¬ revives now cell run (.claim messageId staleMs)) :
    Lagging now (WorkflowRunDO.provePublication now messageId cell)
      (WorkflowRunDO.provePublication now messageId run) := by
  refine lagging.renew (fun absent reservation stored expired => ?_)
    fun earlier reservation passed expired named pending => ?_
  · split
    · rename_i own
      exact absurd ⟨absent, reservation, stored, own.2, own.1⟩ (timely 0)
    · exact expired
  · rw [named, pending]
    split
    · left
      rw [Nat.max_eq_right (by omega), Nat.max_eq_right (by omega)]
    · exact .inr ⟨expired, passed, named, pending⟩

/-- A claim that has passed its deadline is granted anew in both scopes. -/
theorem claimed {messageId : String} {staleMs : Nat} (lagging : Lagging now cell run)
    (timely : ¬ revives now cell run (.claim messageId staleMs)) :
    (apply now cell (.claim messageId staleMs)).1 = (apply now run (.claim messageId staleMs)).1 ∧
      Lagging now (apply now cell (.claim messageId staleMs)).2 (apply now run (.claim messageId staleMs)).2 := by
  have proved := @provePublication now cell run messageId lagging fun _ => timely
  have live : cell.claim.filter (now < ·.expiresAt) = run.claim.filter (now < ·.expiresAt) := by
    rcases lagging.claim with same | ⟨absent, claim, stored, expired⟩
    · rw [same]
    · rw [absent, Option.mem_def.mp stored, Option.filter_some_neg (by simpa using expired)]
      rfl
  simp only [apply, live]
  split
  · exact ⟨rfl, .inl rfl, proved.reservation⟩
  split
  · exact ⟨rfl, proved⟩
  split
  · exact ⟨rfl, proved⟩
  · exact ⟨rfl, .inl rfl, proved.reservation⟩

/-- The reservation that a hold leaves of one. -/
def extendTo (messageId : String) (deadline : Nat) (reservation : QueueMessageReservation) :
    QueueMessageReservation :=
  if reservation.messageId = messageId ∧ reservation.expiresAt < deadline then
    { reservation with expiresAt := deadline }
  else reservation

theorem extendTo_alike {messageId : String} {deadline : Nat} {earlier reservation : QueueMessageReservation}
    (passed : earlier.expiresAt ≤ now) (expired : reservation.expiresAt ≤ now)
    (named : earlier.messageId = reservation.messageId)
    (pending : earlier.publicationPending = reservation.publicationPending) :
    extendTo messageId deadline earlier = extendTo messageId deadline reservation ∨
      (extendTo messageId deadline reservation).expiresAt ≤ now ∧
        (extendTo messageId deadline earlier).expiresAt ≤ now ∧
        (extendTo messageId deadline earlier).messageId = (extendTo messageId deadline reservation).messageId ∧
        (extendTo messageId deadline earlier).publicationPending =
          (extendTo messageId deadline reservation).publicationPending := by
  obtain ⟨id, deadline', pending'⟩ := earlier
  obtain ⟨id', deadline'', pending''⟩ := reservation
  simp only at passed expired named pending
  subst named pending
  unfold extendTo
  by_cases own : id = messageId
  · by_cases live : now < deadline
    · left
      rw [if_pos ⟨own, by simp only; omega⟩, if_pos ⟨own, by simp only; omega⟩]
    · right
      split <;> split <;> simp only [and_true] <;> omega
  · rw [if_neg fun both => own both.1, if_neg fun both => own both.1]
    exact .inr ⟨expired, passed, rfl, rfl⟩

theorem hold {messageId : String} {retryAt expiresAt : Nat} {reservationExpiresAt : Option Nat}
    (lagging : Lagging now cell run)
    (timely : ¬ revives now cell run (.hold messageId retryAt expiresAt reservationExpiresAt)) :
    (apply now cell (.hold messageId retryAt expiresAt reservationExpiresAt)).1 =
        (apply now run (.hold messageId retryAt expiresAt reservationExpiresAt)).1 ∧
      Lagging now (apply now cell (.hold messageId retryAt expiresAt reservationExpiresAt)).2
        (apply now run (.hold messageId retryAt expiresAt reservationExpiresAt)).2 := by
  have own : cell.claim.filter (·.messageId = messageId) = run.claim.filter (·.messageId = messageId) := by
    rcases lagging.claim with same | ⟨absent, claim, stored, -⟩
    · rw [same]
    · rw [absent, Option.mem_def.mp stored, Option.filter_some_neg]
      · rfl
      · simpa using fun named => timely (.inl ⟨absent, claim, stored, named⟩)
  simp only [apply, own]
  split
  · exact ⟨rfl, lagging⟩
  rename_i claim found
  rw [← own] at found
  obtain ⟨held, named⟩ := Option.filter_eq_some_iff.mp found
  simp only [decide_eq_true_eq] at named
  cases reservationExpiresAt with
  | none =>
    refine ⟨rfl, .inl rfl, ?_⟩
    simpa using lagging.reservation
  | some deadline =>
    have alone (absent : cell.reservation = none) (reservation : QueueMessageReservation)
        (stored : reservation ∈ run.reservation) (expired : reservation.expiresAt ≤ now) :
        (extendTo messageId deadline reservation).expiresAt ≤ now := by
      unfold extendTo
      split
      · rename_i own
        refine Nat.le_of_not_lt fun live => timely (.inr ?_)
        exact ⟨⟨claim, held, named⟩, ⟨deadline, rfl, live⟩, absent, reservation, stored, own.1⟩
      · exact expired
    have renewed := lagging.renew alone fun _ _ => extendTo_alike
    exact ⟨rfl, .inl rfl, renewed.reservation⟩

/-- What a release, a completion and an abandoned reservation remove. -/
theorem remove {messageId : String} (lagging : Lagging now cell run) :
    Lagging now { cell with claim := cell.claim.filter (·.messageId ≠ messageId) }
        { run with claim := run.claim.filter (·.messageId ≠ messageId) } ∧
      Lagging now { cell with reservation := cell.reservation.filter (·.messageId ≠ messageId) }
        { run with reservation := run.reservation.filter (·.messageId ≠ messageId) } := by
  refine ⟨⟨?_, lagging.reservation⟩, ⟨lagging.claim, ?_⟩⟩
  · rcases lagging.claim with same | ⟨absent, claim, stored, expired⟩
    · exact .inl (by simp only [same])
    · rw [absent, Option.mem_def.mp stored]
      by_cases own : claim.messageId = messageId
      · exact .inl (by simp [Option.filter_some, own])
      · have kept : (some claim).filter (·.messageId ≠ messageId) = some claim :=
          Option.filter_some_pos (by simpa using own)
        exact .inr ⟨rfl, claim, kept, expired⟩
  · rcases lagging.reservation with same | ⟨reservation, stored, expired, earlier⟩
    · exact .inl (by simp only [same])
    · rw [Option.mem_def.mp stored]
      by_cases own : reservation.messageId = messageId
      · left
        rw [Option.filter_some_neg (by simpa using own), Option.filter_eq_none_iff]
        intro other found
        simpa using (earlier other found).2.1.trans own
      · have kept : (some reservation).filter (·.messageId ≠ messageId) = some reservation :=
          Option.filter_some_pos (by simpa using own)
        refine .inr ⟨reservation, kept, expired, fun other found => ?_⟩
        exact earlier other (Option.filter_eq_some_iff.mp found).1

/-- A timely call gets the same answer in both scopes. -/
theorem call {call : QueueClaimCall} (lagging : Lagging now cell run) (timely : ¬ call.revives now cell run) :
    (call.apply now cell).1 = (call.apply now run).1 ∧
      Lagging now (call.apply now cell).2 (call.apply now run).2 := by
  cases call with
  | reserve messageId expiresAt pending => exact lagging.reserve
  | confirmPublication messageId expiresAt => exact ⟨rfl, lagging.confirmPublication timely⟩
  | claim messageId staleMs => exact lagging.claimed timely
  | hold messageId retryAt expiresAt reservationExpiresAt => exact lagging.hold timely
  | release messageId => exact ⟨rfl, lagging.remove.1⟩
  | complete messageId => exact ⟨rfl, lagging.remove.1.remove.2⟩
  | abandonReservation messageId => exact ⟨rfl, lagging.remove.2⟩

end Lagging

/-- A call that a claim cell does not take gets no answer from a run cell either, unless
it is a completion. -/
theorem QueueClaimCall.runScoped_refused {now : Nat} {claimName : String} {call : QueueClaimCall}
    {store : RunStore}
    (refused : ¬ call.accepted) (other : call.isComplete = false) :
    call.runScoped now claimName store = (.refused, store) := by
  cases call with
  | reserve messageId expiresAt publicationPending =>
    have invalid : validRunQueueClaimName claimName = false ∨ messageId = "" ∨ MAX_SAFE_INTEGER < expiresAt := by
      refine Decidable.byContradiction fun valid => refused ?_
      simp only [not_or, Nat.not_lt] at valid
      exact ⟨valid.2.1, valid.2.2⟩
    simp only [runScoped, WorkflowRunDO.reserveRunQueueMessage, if_pos invalid, answered]
  | confirmPublication messageId expiresAt =>
    have invalid : validRunQueueClaimName claimName = false ∨ messageId = "" ∨ MAX_SAFE_INTEGER < expiresAt := by
      refine Decidable.byContradiction fun valid => refused ?_
      simp only [not_or, Nat.not_lt] at valid
      exact ⟨valid.2.1, valid.2.2⟩
    simp only [runScoped, WorkflowRunDO.confirmRunQueueMessagePublication, if_pos invalid, settled]
  | claim messageId staleMs =>
    have invalid : validRunQueueClaimName claimName = false ∨ messageId = "" ∨ staleMs = 0 ∨
        MAX_SAFE_INTEGER < staleMs := by
      refine Decidable.byContradiction fun valid => refused ?_
      simp only [not_or, Nat.not_lt] at valid
      exact ⟨valid.2.1, valid.2.2.1, valid.2.2.2⟩
    simp only [runScoped, WorkflowRunDO.claimRunQueueMessage, if_pos invalid, answered]
  | hold messageId retryAt expiresAt reservationExpiresAt =>
    have invalid : validRunQueueClaimName claimName = false ∨ messageId = "" ∨ MAX_SAFE_INTEGER < retryAt ∨
        MAX_SAFE_INTEGER < expiresAt ∨ reservationExpiresAt.any (MAX_SAFE_INTEGER < ·) := by
      refine Decidable.byContradiction fun valid => refused ?_
      simp only [not_or, Nat.not_lt, Option.any_eq_true, decide_eq_true_eq, not_exists, not_and] at valid
      exact ⟨valid.2.1, valid.2.2.1, valid.2.2.2.1, valid.2.2.2.2⟩
    simp only [runScoped, WorkflowRunDO.holdRunQueueMessage, if_pos invalid, answered]
  | release messageId => exact absurd trivial refused
  | complete messageId => cases other
  | abandonReservation messageId =>
    have unnamed : messageId = "" := Decidable.not_not.mp refused
    have invalid : validRunQueueClaimName claimName = false ∨ messageId = "" := .inr unnamed
    simp only [runScoped, WorkflowRunDO.abandonRunQueueMessageReservation, if_pos invalid, settled]

theorem QueueClaimCall.takes.answer {now : Nat} {claimName : String} {call : QueueClaimCall} {store : RunStore}
    (takes : call.takes now claimName store) :
    ((call.runScoped now claimName store).1, (call.runScoped now claimName store).2.queueClaim claimName) =
      call.apply now (store.queueClaim claimName) :=
  (@runScoped_eq now call claimName store).resolve_left fun refused => refused.2 takes

/-- The scopes stay alike with every timely call. -/
theorem QueueTwins.lagging {claimName : String} (valid : validRunQueueClaimName claimName = true) {now : Nat}
    {twin : QueueTwin} {answers : List (QueueClaimAnswer × QueueClaimAnswer)}
    (twins : QueueTwins claimName (fun later call twin => call.timely later claimName twin) now twin answers) :
    Lagging now twin.cell.kept (twin.run.queueClaim claimName) ∧ ∀ pair ∈ answers, pair.1 = pair.2 := by
  induction twins with
  | @start now run fresh =>
    refine ⟨?_, fun pair member => by cases member⟩
    have unclaimed : run.queueClaim claimName = {} := by simp [RunStore.queueClaim, fresh]
    rw [unclaimed]
    exact .start
  | @call now later twin answers call answer answer' cell run earlier tick alive scope timely
    cell_answer run_answer ih =>
    obtain ⟨lagging, same⟩ := ih
    have lags := lagging.forward tick
    have answered : answer = answer' ∧ Lagging later cell.kept (run.queueClaim claimName) := by
      by_cases accepted : call.accepted
      · have cell_eq := @cellScoped_eq later call twin.cell accepted
        have run_eq := takes.answer
          (show call.takes later claimName twin.run from ⟨valid, .inl accepted, alive, scope⟩)
        obtain ⟨alike, lags'⟩ := lags.call timely.1
        rw [← cell_eq, ← run_eq, cell_answer, run_answer] at alike lags'
        exact ⟨alike, lags'⟩
      · have other : call.isComplete = false := by
          cases call with
          | complete messageId =>
            have unnamed : messageId = "" := Decidable.not_not.mp accepted
            exact absurd (congrArg _ unnamed) timely.2
          | _ => rfl
        rw [cellScoped_refused accepted] at cell_answer
        rw [runScoped_refused accepted other] at run_answer
        cases cell_answer
        cases run_answer
        exact ⟨rfl, lags⟩
    refine ⟨answered.2, fun pair member => ?_⟩
    rcases List.mem_append.mp member with before | last
    · exact same pair before
    · rw [List.mem_singleton.mp last]
      exact answered.1
  | alarm _ tick _ _ ih => exact ⟨(ih.1.forward tick).lapse, ih.2⟩
  | @other now twin answers run _ kept ih =>
    refine ⟨?_, ih.2⟩
    have unchanged : run.queueClaim claimName = twin.run.queueClaim claimName := by
      unfold RunStore.queueClaim
      rw [kept]
    rw [unchanged]
    exact ih.1

/-- Both scopes give the same answers to the same calls, as long as no call revives a part
of its message that the alarm has deleted from the claim cell. -/
theorem queueScopes_alike {claimName : String} {now : Nat} {twin : QueueTwin}
    {answers : List (QueueClaimAnswer × QueueClaimAnswer)} (valid : validRunQueueClaimName claimName = true)
    (twins : QueueTwins claimName (fun later call twin => call.timely later claimName twin) now twin answers) :
    ∀ pair ∈ answers, pair.1 = pair.2 :=
  (twins.lagging valid).2

theorem queueScopes_alike_reserved : ∃ twin answers,
    QueueTwins "claim:5:queue:key" (fun later call twin =>
      call.timely later "claim:5:queue:key" twin) 10 twin answers ∧
      answers.length = 2 ∧ ∀ pair ∈ answers, pair.1 = pair.2 := by
  have reserved := (@QueueTwins.start "claim:5:queue:key"
    (fun later call twin => call.timely later "claim:5:queue:key" twin) 0
    { queueClaimScope := some "run" } rfl).call
    (Nat.le_refl 0) rfl rfl (show timely 0 _ (.reserve "first" 10 false) _ from ⟨id, by decide⟩) rfl rfl
  have lapsed := (reserved.alarm (show 0 ≤ 10 by decide) rfl (Nat.le_refl 10)).other
    (show ({ queueClaimScope := some "run", queueClaims := _ } : RunStore).queueClaims[_]? = _ from rfl)
  have again := lapsed.call (Nat.le_refl 10) rfl rfl
    (show timely 10 _ (.reserve "second" 20 false) _ from ⟨id, by decide⟩) rfl rfl
  exact ⟨_, _, again, rfl, queueScopes_alike (by decide +kernel) again⟩

/-- A delivery that holds its claim after the claim has passed its deadline is answered by
the run cell only. -/
theorem queueScopes_differ :
    ¬ ∀ now twin answers, QueueTwins "claim:5:queue:key" (fun _ _ _ => True) now twin answers →
    ∀ pair ∈ answers, pair.1 = pair.2 := by
  intro alike
  have valid : validRunQueueClaimName "claim:5:queue:key" = true := by decide +kernel
  obtain ⟨run, granted, kept⟩ : ∃ run, runScoped 0 "claim:5:queue:key" (.claim "message" 900000)
      { queueClaimScope := some "run" } = (.claimed true none, run) ∧
      run.queueClaim "claim:5:queue:key" = { claim := some ⟨"message", 900000, none⟩ } := by
    have granted := takes.answer (show takes 0 "claim:5:queue:key" { queueClaimScope := some "run" }
      (.claim "message" 900000) from ⟨valid, .inl (by simp [accepted, MAX_SAFE_INTEGER]), rfl, rfl⟩)
    rw [show RunStore.queueClaim { queueClaimScope := some "run" } "claim:5:queue:key" = {} from rfl] at granted
    obtain ⟨answer, kept⟩ := Prod.mk.inj granted
    exact ⟨_, Prod.ext answer rfl, kept⟩
  have held : (runScoped 900001 "claim:5:queue:key" (.hold "message" 960000 1860000 none)
      { queueClaimScope := some "run", queueClaims := run.queueClaims }).1 = .held true := by
    have answer := congrArg Prod.fst (takes.answer (show takes 900001 "claim:5:queue:key"
      { queueClaimScope := some "run", queueClaims := run.queueClaims } (.hold "message" 960000 1860000 none) from
      ⟨valid, .inl (by simp [accepted, MAX_SAFE_INTEGER]), rfl, rfl⟩))
    rw [show RunStore.queueClaim { queueClaimScope := some "run", queueClaims := run.queueClaims }
      "claim:5:queue:key" =
      { claim := some ⟨"message", 900000, none⟩ } from kept] at answer
    exact answer
  have claimed := (@QueueTwins.start "claim:5:queue:key" (fun _ _ _ => True) 0
    { queueClaimScope := some "run" } rfl).call
    (Nat.le_refl 0) rfl rfl trivial (show cellScoped 0 (.claim "message" 900000) _ = _ from rfl) granted
  have lapsed := (claimed.alarm (show 0 ≤ 900000 by decide) rfl (Nat.le_refl 900000)).other
    (show ({ queueClaimScope := some "run", queueClaims := run.queueClaims } : RunStore).queueClaims[_]? =
      _ from rfl)
  have late := lapsed.call (show 900000 ≤ 900001 by decide) rfl rfl trivial
    (show cellScoped 900001 (.hold "message" 960000 1860000 none) _ =
      (.held false, _) from rfl) (Prod.ext held rfl)
  exact absurd (alike _ _ _ late _ (.tail _ (.head _))) (by decide)

end CelldWorld
