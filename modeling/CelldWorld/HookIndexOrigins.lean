import CelldWorld.HookShardOrigins

namespace CelldWorld
open Interleaving

variable {W : WorldContract} {route : Routing} {fleet : Fleet} {α : Type} {token hookId : String}
    {owner : HookTokenOwner}

theorem fleetRoute_returns {callee : FleetProg α} {post : α → Fleet → Prop} {attempts : Nat}
    (lasting : (hookProtocol W route).Lasting post)
    (returns : (hookProtocol W route).Returns callee fleet post) :
    (hookProtocol W route).Returns (fleetRoute callee attempts) fleet post := by
  induction attempts with
  | zero => exact returns.remote lasting
  | succ attempts ih =>
    refine .rpc (returns.attempt lasting) (fun returned later knows held => ?_) fun _ => ih
    cases returned with
    | ok answer =>
      exact .ofExcept fun value same last more => lasting value later last more (held answer rfl value same)
    | error error => exact ih.mono knows

theorem idempotent_returns {callee : FleetProg α} {post : α → Fleet → Prop}
    (lasting : (hookProtocol W route).Lasting post)
    (returns : (hookProtocol W route).Returns callee fleet post) :
    (hookProtocol W route).Returns (idempotent callee) fleet post :=
  fleetRoute_returns lasting returns

theorem idempotent_any {callee : FleetProg α}
    (returns : (hookProtocol W route).Returns callee fleet fun _ _ => True) :
    (hookProtocol W route).Returns (idempotent callee) fleet fun _ _ => True :=
  fleetRoute_returns any_lasting returns

theorem inBatches_free {β : Type} [DecidableEq β] {operation : List β → FleetProg Nat} {batches : Nat}
    {values : List β} (free : ∀ batch, (operation batch).Only FleetOp.Free) :
    (inBatches operation batches values).Only FleetOp.Free := by
  induction batches generalizing values with
  | zero => trivial
  | succ batches ih =>
    unfold inBatches
    split
    · trivial
    · exact .bind (free _) fun _ => .bind ih fun _ => trivial

namespace WorkflowIndex

theorem releaseHooks_returns {runId : String} {hooks : List HookIndexReference} {runEnded : Bool} :
    (hookProtocol W route).Returns (releaseHooks route runId hooks runEnded) fleet fun _ _ => True := by
  unfold releaseHooks
  simp only
  refine .bind_any (.forkAll_any fun program member => ?_) fun deleted later _ => ?_
  · rcases List.mem_append.mp member with member | member
    · obtain ⟨shard, -, rfl⟩ := List.mem_map.mp member
      exact returns_free (inBatches_free fun _ => .remote HookTokenDO.releaseTokens_free)
    · obtain ⟨shard, -, rfl⟩ := List.mem_map.mp member
      exact returns_free (inBatches_free fun _ => .remote HookIdDO.releaseHookIds_free)
  · exact .map_any (.ofExcept fun _ _ _ _ => trivial)

theorem releaseTokenClaim_returns {tokenClaimId : Option String} {takeover : Bool} :
    (hookProtocol W route).Returns (releaseTokenClaim route token owner tokenClaimId takeover) fleet
      fun _ _ => True := by
  unfold releaseTokenClaim
  split
  · exact .map_any (HookTokenDO.settle_returns.remote any_lasting)
  split
  · exact returns_free (.remote HookTokenDO.releaseClaim_free)
  · exact .pure fun _ _ => trivial

theorem reserveTokenClaim_returns {proposedClaimId : String} {force : Option Bool} {passes : Nat} :
    (hookProtocol W route).Returns (reserveTokenClaim W route token owner proposedClaimId force passes) fleet
      fun _ _ => True := by
  cases force with
  | some preempt => exact HookTokenDO.forceReserve_returns.remote any_lasting
  | none =>
    refine .bind_any (HookTokenDO.reserveToken_returns.remote any_lasting) fun reserved later _ => ?_
    cases reserved <;> exact .pure fun _ _ => trivial

theorem reserveHookIdClaim_returns {tokenClaimId : Option String} {claimedFrom : Option HookClaimedFrom}
    {sharedClaimId : String} {passes : Nat} :
    (hookProtocol W route).Returns
      (reserveHookIdClaim route token owner tokenClaimId claimedFrom sharedClaimId passes) fleet
      fun _ _ => True := by
  have reserves : (hookProtocol W route).Returns
    (HookIdDO.reserveHookId route owner.hookId owner sharedClaimId passes).remote
      fleet fun _ _ => True := HookIdDO.reserveHookId_returns.remote any_lasting
  refine .bind_any reserves.attempt_any fun reserved later _ => ?_
  cases reserved with
  | error thrown =>
    refine .bind_any (.forkAll_any fun program member => ?_) fun _ _ _ => .throw
    rcases List.mem_pair.mp member with rfl | rfl
    · exact releaseTokenClaim_returns
    · exact returns_free (.remote HookIdDO.releaseClaim_free)
  | ok result =>
    cases result with
    | claimed claimId => exact .pure fun _ _ => trivial
    | held holder => exact .map_any releaseTokenClaim_returns

theorem reserveHook_returns {force : Option Bool} {passes : Nat} :
    (hookProtocol W route).Returns (reserveHook W route token owner force passes) fleet fun _ _ => True := by
  refine .bind_any (returns_free (.perform fun _ => trivial)) fun proposedClaimId later _ => ?_
  refine .bind_any reserveTokenClaim_returns fun claimed later _ => ?_
  cases claimed with
  | claimed claimId claimedFrom => exact reserveHookIdClaim_returns
  | held holder pending forceRefusedReason =>
    simp only
    split
    · exact .pure fun _ _ => trivial
    · exact reserveHookIdClaim_returns

/-- A takeover is completed with a hook that was created, for a claimer that was. -/
theorem completeHookTakeover_returns {hook : Hook} {reservation : HookReservation}
    (names : fleet.Names token hook) (created : fleet.Created owner token) :
    (hookProtocol W route).Returns (completeHookTakeover route token hookId hook owner reservation) fleet
      fun _ _ => True := by
  have settles : (hookProtocol W route).Returns (HookTokenDO.settleTakeover route token
      (some ⟨owner, reservation.tokenClaimId⟩) (some hook)) fleet fun _ _ => True := by
    refine (HookTokenDO.settleTakeover_returns fun other carried => ?_).any
    obtain rfl := Option.mem_some.mp carried
    refine ⟨names, fun claimer known => ?_⟩
    obtain rfl := Option.mem_some.mp known
    exact created
  refine .bind_any (settles.remote any_lasting) fun settled later knows => ?_
  split
  · refine .map_any ((HookIdDO.publish_returns ?_).remote any_lasting)
    exact (names.mono knows).id
  · exact returns_free (.remote HookIdDO.releaseClaim_free)

theorem settleHookTakeover_returns {claimer : Option HookTokenOwner} :
    (hookProtocol W route).Returns (settleHookTakeover route token claimer) fleet
      fun answer fleet => ∀ owner ∈ answer, fleet.Created owner token :=
  (HookTokenDO.settleTakeover_returns fun _ carried => by cases carried).remote owners_lasting

theorem finalizeHookIndexes_returns {hook : Hook} {reservation : Option HookReservation}
    (names : fleet.Names token hook) :
    (hookProtocol W route).Returns (finalizeHookIndexes route token hookId hook owner reservation) fleet
      fun _ _ => True := by
  refine .bind_any ((HookTokenDO.finalizeToken_returns names).remote any_lasting) fun stored later knows => ?_
  split
  · refine .map_any ((HookIdDO.publish_returns ?_).remote any_lasting)
    exact (names.mono knows).id
  · exact .pure fun _ _ => trivial

theorem releaseHookReservation_returns {reservation : HookReservation} :
    (hookProtocol W route).Returns (releaseHookReservation route token owner reservation) fleet fun _ _ =>
      True := by
  refine .bind_any (.forkAll_any fun program member => ?_) fun released later _ => ?_
  · rcases List.mem_pair.mp member with rfl | rfl
    · exact releaseTokenClaim_returns
    · exact returns_free (.remote HookIdDO.releaseClaim_free)
  · exact .map_any (.ofExcept fun _ _ _ _ => trivial)

end WorkflowIndex

section Client
variable {request : ApplyEventRequest} {admission : HookAdmission} {thrown : Thrown}
    {passes waits admissions : Nat}

/-- The hook that a committed event hands to be indexed was created. -/
theorem applyEvent_returns :
    (hookProtocol W route).Returns (callRunChecked request.runId (.applyEvent request)) fleet
    fun outcome fleet => ∀ success, outcome = .ok success → ∀ hook ∈ success.hookToIndex, fleet.NamesId hook := by
  refine callRunChecked_returns (fun _ _ _ knows held success same hook carried =>
    (held success same hook carried).mono knows)
    fun later _ origins => ⟨trivial, fun outcome answered success same hook carried => ?_⟩
  subst same
  obtain ⟨earlier, -, reach⟩ := origins.cells request.runId
  obtain ⟨id, found⟩ := applyEvent_hookToIndex reach answered carried
  unfold Fleet.NamesId Fleet.Created
  rw [found.owner]
  simp only [Fleet.callRun, RunCall.op, Fleet.runCell, if_true]
  exact found.created

theorem indexed_lasting : (hookProtocol W route).Lasting fun (answer : ApplyEventOutcome × Bool) fleet =>
    ∀ success, answer.1 = .ok success → ∀ hook ∈ success.hookToIndex, fleet.NamesId hook :=
  fun _ _ _ knows named success same hook carried => (named success same hook carried).mono knows

theorem applyEventRoute_returns : (hookProtocol W route).Returns (applyEventRoute route request) fleet
    fun answer fleet => ∀ success, answer.1 = .ok success → ∀ hook ∈ success.hookToIndex, fleet.NamesId hook := by
  refine .bind applyEvent_returns fun outcome later _ named => ?_
  have answers (released : Bool) (next : Fleet) (knows : (hookProtocol W route).Knows later next) :
      (hookProtocol W route).Returns (pure (outcome, released)) next fun answer fleet =>
        ∀ success, answer.1 = .ok success → ∀ hook ∈ success.hookToIndex, fleet.NamesId hook :=
    .pure fun last tail success same hook carried => (named success same hook carried).mono (knows.trans tail)
  cases outcome with
  | fail failure => exact answers false later .refl
  | ok success =>
    simp only
    split
    · exact answers false later .refl
    · refine .bind_any WorkflowIndex.releaseHooks_returns.attempt_any fun released next knows => ?_
      exact answers _ next knows

/-- The hook that the token was found to name when its claimer held it is what is published. -/
theorem settleAmbiguousTakeover_returns :
    (hookProtocol W route).Returns (settleAmbiguousTakeover route admission) fleet fun _ _ => True := by
  refine .bind (idempotent_returns owners_lasting WorkflowIndex.settleHookTakeover_returns)
    fun settled later _ created => ?_
  split
  · rename_i own
    refine .bind (idempotent_returns names_lasting HookTokenDO.get_returns) fun found next knows names => ?_
    cases found with
    | none => exact .pure fun _ _ => trivial
    | some hook =>
      refine idempotent_any (WorkflowIndex.completeHookTakeover_returns (names hook rfl) ?_)
      exact knows (.created admission.owner admission.token) (created admission.owner own)
  · exact idempotent_any WorkflowIndex.releaseHookReservation_returns

theorem resolveAmbiguousCreation_returns :
    (hookProtocol W route).Returns (resolveAmbiguousCreation route admission thrown) fleet fun _ _ => True := by
  unfold resolveAmbiguousCreation
  split
  · refine .bind_any settleAmbiguousTakeover_returns.attempt_any fun _ _ _ => ?_
    exact .pure fun _ _ => trivial
  · refine .bind_any (returns_free (.attempt (callRun_free fun _ => trivial))) fun resolution later _ => ?_
    split
    · exact .throw
    · exact .pure fun _ _ => trivial
    · exact idempotent_any WorkflowIndex.releaseHookReservation_returns

theorem publishHookIndexes_returns {admitted : Option HookAdmission} {hookToIndex : Option Hook}
    (names : ∀ hook ∈ hookToIndex, fleet.NamesId hook) :
    (hookProtocol W route).Returns (publishHookIndexes route admitted hookToIndex) fleet fun _ _ => True := by
  have named (hook : Hook) (carried : hookToIndex = some hook) : fleet.Names hook.token hook :=
    ⟨rfl, names hook carried⟩
  unfold publishHookIndexes
  split
  · rename_i hook admission
    split
    · exact idempotent_any (WorkflowIndex.completeHookTakeover_returns (named hook rfl) (names hook rfl))
    · exact idempotent_any (WorkflowIndex.finalizeHookIndexes_returns (named hook rfl))
  · rename_i hook
    exact idempotent_any (WorkflowIndex.finalizeHookIndexes_returns (named hook rfl))
  · exact idempotent_any WorkflowIndex.releaseHookReservation_returns
  · exact .pure fun _ _ => trivial

theorem admitEvent_returns : (hookProtocol W route).Returns (admitEvent W route request waits passes) fleet
    fun _ _ => True := by
  unfold admitEvent
  split
  · refine .bind_any (idempotent_any WorkflowIndex.reserveHook_returns) fun reserved later _ => ?_
    split <;> exact .pure fun _ _ => trivial
  · exact .pure fun _ _ => trivial

theorem reportRefusal_returns {failure : ApplyEventFailure} :
    (hookProtocol W route).Returns (reportRefusal route failure) fleet fun _ _ => True := by
  unfold reportRefusal
  simp only
  split
  · have settles : (hookProtocol W route).Returns (idempotent (WorkflowIndex.settleHookTakeover route
        (failure.token.getD "") failure.claimedBy)) fleet fun answer fleet =>
          ∀ owner ∈ answer, fleet.Created owner (failure.token.getD "") :=
      idempotent_returns owners_lasting WorkflowIndex.settleHookTakeover_returns
    exact .bind_any settles.any.attempt_any fun _ _ _ => .throw
  · exact .throw

theorem createEvent_returns :
    (hookProtocol W route).Returns (createEvent W route request passes waits admissions) fleet
    fun _ _ => True := by
  induction passes generalizing fleet waits admissions with
  | zero => exact .throw
  | succ passes ih =>
    refine .bind_any admitEvent_returns fun sent later _ => ?_
    cases sent with
    | none => exact .bind_any (returns_free (.perform fun _ => trivial)) fun _ _ _ => ih
    | some sent =>
      have sends := @applyEventRoute_returns W route later sent.request
      refine .bind ((sends.remote indexed_lasting).attempt indexed_lasting) fun answered next _ indexed => ?_
      cases answered with
      | error thrown =>
        simp only
        split
        · exact .bind_any resolveAmbiguousCreation_returns fun _ _ _ => .throw
        · exact .throw
      | ok answer =>
        obtain ⟨success | failure, released⟩ := answer
        · refine .bind_any (publishHookIndexes_returns (indexed _ rfl success rfl)) fun _ last _ => ?_
          simp only
          split
          · exact .map_any (idempotent_any WorkflowIndex.releaseHooks_returns)
          · exact .pure fun _ _ => trivial
        · have goesOn (last : Fleet) : (hookProtocol W route).Returns
              (if isForced request ∧ failure.code = .hookClaimCancelled ∧
                admissions + 1 < MAX_FORCED_HOOK_ADMISSIONS then
                createEvent W route request passes 0 (admissions + 1) else reportRefusal route failure) last
              fun _ _ => True := by
            split
            · exact ih
            · exact reportRefusal_returns
          simp only
          split
          · exact .bind_any (idempotent_any WorkflowIndex.releaseHookReservation_returns) fun _ last _ =>
              goesOn last
          · exact goesOn next

theorem hookTask_returns (task : HookTask) (fleet : Fleet) :
    (hookProtocol W route).Returns (task.program W route) fleet fun _ _ => True := by
  cases task with
  | createEvent => exact .map_any createEvent_returns
  | getHookByToken =>
    exact .map_any (idempotent_returns names_lasting HookTokenDO.get_returns).any
  | getHookById => exact .map_any (idempotent_any HookIdDO.get_returns)
  | settleHookTakeover =>
    exact .bind_any (idempotent_returns owners_lasting WorkflowIndex.settleHookTakeover_returns).any fun _ _ _ =>
      .pure fun _ _ => trivial
  | releaseHookIndexes => exact .map_any WorkflowIndex.releaseHooks_returns
  | tokenAlarm => exact HookTokenDO.alarm_returns
  | hookIdAlarm => exact HookIdDO.alarm_returns
  | maintain => exact returns_free (callRun_free fun _ => trivial)
  | elapse => exact returns_free (.perform fun _ => trivial)

end Client

section Runs
variable {now : Nat} {pool : Pool FleetOp Thrown Fleet}

theorem IndexStore.scheduled_empty : ({} : IndexStore).Scheduled := fun name =>
  .of_unclaimed (by simp) fun time => by simp

theorem Fleet.Kept.start : ({ now } : Fleet).Kept W where
  cells _ := ⟨now, Nat.le_refl now, .start now⟩
  tokens _ token hook stored := by simp at stored
  hookIds _ hookId hook stored := by simp at stored
  disposals _ _ event member := by cases member
  tokenShards _ :=
    { scheduled := IndexStore.scheduled_empty
      unclaimed := fun token intent stored => by simp at stored
      pending := fun token intent stored => by simp at stored
      named := fun key token stored => by simp at stored }
  hookIdShards _ := IndexStore.scheduled_empty

theorem hookFleet_sound (path : (hookFleet W route).Leads ⟨{ now }, []⟩ pool) :
    ∃ owns, (hookProtocol W route).Sound pool owns := by
  have start : (hookProtocol W route).Sound ⟨{ now }, []⟩ fun _ => ∅ :=
    ⟨.start, fun _ _ _ => Set.disjoint_empty _, fun _ _ stored => by cases stored⟩
  have tasks (task : HookTask) (fleet : Fleet) :
      (hookProtocol W route).Safe (task.program W route) ∅ fleet fun _ _ _ => True :=
    (hookTask_returns task fleet ∅).weaken fun _ _ _ _ _ => trivial
  exact (start.leads (fun task fleet _ => tasks task fleet) path).1

theorem hookFleet_kept (path : (hookFleet W route).Leads ⟨{ now }, []⟩ pool) : pool.state.Kept W :=
  (hookFleet_sound path).elim fun _ sound => sound.inv

/-- In every run every claim of a shard is stored with its one deadline, and no other claim deadline is.
A claimed token has no record and no takeover, and a pending takeover has its deadline. -/
theorem hookDeadlines_kept (path : (hookFleet W route).Leads ⟨{ now }, []⟩ pool) :
    (∀ shard, (pool.state.tokens shard).Sound) ∧ ∀ shard, (pool.state.hookIds shard).Scheduled :=
  ⟨(hookFleet_kept path).tokenShards, (hookFleet_kept path).hookIdShards⟩

/-- The log of the run has the creation, as long as the payload of the run is stored. -/
def Fleet.Logged (W : WorldContract) (fleet : Fleet) (owner : HookTokenOwner) (token : String) : Prop :=
  let store := (fleet.cells owner.runId).store
  store.beforePayload = true → CreatedIn (store.log W) owner.hookId token

theorem Fleet.Origins.logged {fleet : Fleet} {owner : HookTokenOwner} (origins : fleet.Origins W)
    (created : fleet.Created owner token) : fleet.Logged W owner token := by
  intro before
  obtain ⟨earlier, -, reach⟩ := origins.cells owner.runId
  rw [(reach.logState before).log]
  exact created

/-- Whatever calls are lost and whichever parties stop, the indexes name hooks that were created:
a token's record a hook with this token, and both records a hook whose creation its run has logged. -/
theorem hookIndexes_created (path : (hookFleet W route).Leads ⟨{ now }, []⟩ pool) :
    (∀ shard (token : String) hook, (pool.state.tokens shard).records[token]? = some hook →
      hook.token = token ∧ pool.state.Created (hookOwner hook) token ∧
        pool.state.Logged W (hookOwner hook) token) ∧
    (∀ shard (hookId : String) hook, (pool.state.hookIds shard).records[hookId]? = some hook →
      pool.state.Created (hookOwner hook) hook.token ∧ pool.state.Logged W (hookOwner hook) hook.token) := by
  have origins := (hookFleet_kept path).toOrigins
  refine ⟨fun shard token hook stored => ?_, fun shard hookId hook stored => ?_⟩
  · obtain ⟨same, created⟩ := origins.tokens shard token hook stored
    exact ⟨same, created, origins.logged created⟩
  · have created := origins.hookIds shard hookId hook stored
    exact ⟨created, origins.logged created⟩

/-- A hook is disposed by force only for a claimer that was created with the token it
gives up: when a party sends the disposal, whatever the cell then journals for it, and
wherever a stored log has one, if the schema lets no client name a claimer itself. -/
theorem forcedDisposal_created (path : (hookFleet W route).Leads ⟨{ now }, []⟩ pool) :
    (∀ runId hookId token claimedBy journaled after, (hookFleet W route).Step pool
        (some ⟨.run runId (.forceDisposeHook hookId token claimedBy), journaled⟩) after →
      pool.state.Created claimedBy token ∧ pool.state.Logged W claimedBy token ∧
      ∃ events, (after.state.cells runId).history = (pool.state.cells runId).history ++ events ∧
        ∀ event ∈ events, event.data = .hookDisposed hookId (some token) (some claimedBy)) ∧
    (W.DropsForceClaims → ∀ runId hookId token claimedBy, ∀ event ∈ (pool.state.cells runId).store.log W,
      (pool.state.cells runId).store.beforePayload = true →
      event.data = .hookDisposed hookId token (some claimedBy) →
      ∃ taken, token = some taken ∧ pool.state.Created claimedBy taken ∧
        pool.state.Logged W claimedBy taken) := by
  obtain ⟨owns, sound⟩ := hookFleet_sound path
  have origins : pool.state.Origins W := sound.inv.toOrigins
  refine ⟨fun runId hookId token claimedBy journaled after step => ?_,
    fun drops runId hookId token claimedBy event disposed stored data => ?_⟩
  · obtain ⟨held, created⟩ := sound.needs step
    obtain ⟨choice, executed⟩ := step.executes
    obtain ⟨earlier, -, reach⟩ := origins.cells runId
    have after_ : (pool.state.callRun W runId (.forceDisposeHook hookId token claimedBy)).2 = after.state :=
      congrArg Prod.snd (Option.some.inj executed)
    have appends : (after.state.cells runId).history = (pool.state.cells runId).history ++
        appended W (pool.state.cells runId).store ((CellOp.forceDisposeHook hookId token claimedBy).run W runId
          pool.state.now (pool.state.cells runId).store) := by
      rw [← after_]
      simp only [Fleet.callRun, RunCall.op, Fleet.runCell, if_true]
    exact ⟨created, origins.logged created, _, appends, fun event => CellOp.forceDisposeHook_appended reach⟩
  · obtain ⟨earlier, -, reach⟩ := origins.cells runId
    rw [(reach.logState stored).log] at disposed
    obtain ⟨taken, same, created⟩ := origins.disposals drops runId event disposed hookId token claimedBy data
    exact ⟨taken, same, created, origins.logged created⟩

end Runs

section Takeover

def oneShard : Routing := ⟨fun _ => "tokens", fun _ => "hookIds"⟩

def startTask (runId : String) : HookTask :=
  .createEvent runId ⟨none, .runStarted (some
    { deploymentId := some "deployment", workflowName := some "workflow", input := some (.string "input")
      executionContext := none, attributes := none, allowReservedAttributes := none, encryptionPublicKey :=
        none })⟩ none none 4

def hookTask (runId hookId : String) (force : Option Bool) : HookTask :=
  .createEvent runId ⟨some 5, .hookCreated hookId ⟨"token", none, none, none, none, force, none⟩⟩ none none 4

/-- Each task runs to its end before the next one starts. -/
def oneByOne (tasks : List (HookTask × Nat)) : List (Action HookTask Thrown String) :=
  tasks.zipIdx.flatMap fun ((task, steps), thread) =>
    .spawn task :: List.replicate steps (.advance thread [] s!"claim{thread}")

/-- A run creates a hook, and the hook of another run takes its token over. -/
def takeover : List (Action HookTask Thrown String) :=
  oneByOne [(startTask "run", 3), (startTask "other", 3), (hookTask "run" "hook" none, 23),
    (hookTask "other" "taker" (some true), 30)]

/-- The hook is claimed, and its creation has not been sent. -/
theorem hookDeadlines_kept_claim : ∃ pool : Pool FleetOp Thrown Fleet, ∃ claim,
    (pool.state.tokens "tokens").claims["token"]? = some claim ∧
      (pool.state.tokens "tokens").claimDeadlines[(claim.expiresAt, "token")]? =
        some ⟨"token", claim.claimId, claim.expiresAt⟩ := by
  have runs : ((hookFleet .unary oneShard).schedule
    (oneByOne [(startTask "run", 3), (hookTask "run" "hook" none, 10)])
      ⟨{ now := 1 }, []⟩).map (fun pool => ((pool.state.tokens "tokens").claims["token"]?).isSome) =
        some true := by decide +kernel
  obtain ⟨pool, reached, claimed⟩ := Option.map_eq_some_iff.mp runs
  obtain ⟨claim, stored⟩ := Option.isSome_iff_exists.mp claimed
  have deadline := (((hookDeadlines_kept (.of_schedule reached)).1 "tokens").scheduled).deadline
    stored claim.expiresAt
  rw [if_pos rfl] at deadline
  exact ⟨pool, claim, stored, deadline⟩

theorem hookIndexes_created_takeover : ∃ pool : Pool FleetOp Thrown Fleet,
    ((pool.state.tokens "tokens").records["token"]?).map hookOwner = some ⟨"other", "taker"⟩ ∧
      pool.state.Created ⟨"other", "taker"⟩ "token" := by
  have runs : ((hookFleet .unary oneShard).schedule takeover ⟨{ now := 1 }, []⟩).map (fun pool =>
      ((pool.state.tokens "tokens").records["token"]?).map hookOwner) =
        some (some ⟨"other", "taker"⟩) := by decide +kernel
  obtain ⟨pool, reached, recorded⟩ := Option.map_eq_some_iff.mp runs
  obtain ⟨hook, stored, owns⟩ := Option.map_eq_some_iff.mp recorded
  obtain ⟨-, created, -⟩ := (hookIndexes_created (.of_schedule reached)).1 "tokens" "token" hook stored
  exact ⟨pool, recorded, owns ▸ created⟩

/-- The hook that a performed operation disposes by force, with its claimer. -/
def disposedHook : Performed FleetOp → Option (HookTokenOwner × String × HookTokenOwner)
  | ⟨.run runId (.forceDisposeHook hookId token claimedBy), _⟩ => some (⟨runId, hookId⟩, token, claimedBy)
  | _ => none

theorem disposedHook_eq_some {performed : Performed FleetOp} {victim claimedBy : HookTokenOwner} {token : String}
    (disposes : disposedHook performed = some (victim, token, claimedBy)) :
    ∃ journaled, performed = ⟨.run victim.runId (.forceDisposeHook victim.hookId token claimedBy),
      journaled⟩ := by
  unfold disposedHook at disposes
  split at disposes
  · cases disposes
    exact ⟨_, rfl⟩
  · cases disposes

/-- The claimer was created when the takeover disposed its victim, and the log of the
victim's run names it from then on. -/
theorem forcedDisposal_created_takeover :
    (∃ pool : Pool FleetOp Thrown Fleet, ∃ journaled after, (hookFleet .dropping oneShard).Step pool
        (some ⟨.run "run" (.forceDisposeHook "hook" "token" ⟨"other", "taker"⟩), journaled⟩) after ∧
      pool.state.Created ⟨"other", "taker"⟩ "token") ∧
    ∃ pool : Pool FleetOp Thrown Fleet, ∃ event ∈ (pool.state.cells "run").store.log .dropping,
      event.data = .hookDisposed "hook" (some "token") (some ⟨"other", "taker"⟩) ∧
        pool.state.Created ⟨"other", "taker"⟩ "token" := by
  constructor
  · have runs : (((hookFleet .dropping oneShard).schedule (takeover.take 49) ⟨{ now := 1 }, []⟩).bind fun pool =>
        ((hookFleet .dropping oneShard).act pool (.advance 3 [] "claim3")).bind fun acted =>
          acted.2.bind disposedHook) = some (⟨"run", "hook"⟩, "token", ⟨"other", "taker"⟩) := by decide +kernel
    obtain ⟨pool, reached, acts⟩ := Option.bind_eq_some_iff.mp runs
    obtain ⟨⟨after, performed⟩, acts, disposes⟩ := Option.bind_eq_some_iff.mp acts
    obtain ⟨operation, rfl, disposes⟩ := Option.bind_eq_some_iff.mp disposes
    obtain ⟨journaled, rfl⟩ := disposedHook_eq_some disposes
    have step : (hookFleet .dropping oneShard).Step pool
        (some ⟨.run "run" (.forceDisposeHook "hook" "token" ⟨"other", "taker"⟩), journaled⟩) after :=
      ⟨⟨_, acts⟩, fun _ _ => rfl⟩
    exact ⟨pool, journaled, after, step, ((forcedDisposal_created (.of_schedule reached)).1 _ _ _ _ _ _ step).1⟩
  · have runs : ((hookFleet .dropping oneShard).schedule takeover ⟨{ now := 1 }, []⟩).map (fun pool =>
        ((pool.state.cells "run").store.beforePayload,
          (((pool.state.cells "run").store.log .dropping).map (·.data))[3]?)) =
          some (true, some (.hookDisposed "hook" (some "token") (some ⟨"other", "taker"⟩))) := by decide +kernel
    obtain ⟨pool, reached, found⟩ := Option.map_eq_some_iff.mp runs
    obtain ⟨stored, disposed⟩ := Prod.mk.inj found
    rw [List.getElem?_map] at disposed
    obtain ⟨event, journaled, data⟩ := Option.map_eq_some_iff.mp disposed
    have logged := List.mem_of_getElem? journaled
    obtain ⟨taken, same, created, -⟩ :=
      (forcedDisposal_created (.of_schedule reached)).2 WorldContract.dropping_drops
      "run" "hook" _ _ event logged stored data
    obtain rfl := Option.some.inj same
    exact ⟨pool, event, logged, data, created⟩

end Takeover

end CelldWorld
