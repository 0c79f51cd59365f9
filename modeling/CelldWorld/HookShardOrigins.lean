import CelldWorld.HookOrigins

namespace CelldWorld
open Interleaving

variable {W : WorldContract} {route : Routing} {fleet : Fleet} {token hookId : String} {owner : HookTokenOwner}

/-- A hook that its owner's run has answered to have committed. -/
def Fleet.Committed (fleet : Fleet) (owner : HookTokenOwner) (token : Option String) (hook : Hook) : Prop :=
  hookOwner hook = owner ∧ (∀ wanted ∈ token, hook.token = wanted) ∧ fleet.NamesId hook

theorem Fleet.Committed.names {hook : Hook} (committed : fleet.Committed owner (some token) hook) :
    fleet.Names token hook := by
  obtain ⟨-, same, created⟩ := committed
  obtain rfl := same token rfl
  exact ⟨rfl, created⟩

theorem committed_lasting {wanted : Option String} :
    (hookProtocol W route).Lasting fun (answer : Option Hook) fleet =>
    ∀ hook ∈ answer, fleet.Committed owner wanted hook :=
  fun _ _ _ knows committed hook carried =>
    ⟨(committed hook carried).1, (committed hook carried).2.1, (committed hook carried).2.2.mono knows⟩

/-- A transaction of a run cell forgets nothing. -/
theorem knows_callRun {β : Type} {runId : String} {call : RunCall β} :
    (hookProtocol W route).Knows fleet (fleet.callRun W runId call).2 := by
  intro fact holds
  obtain ⟨tokens, hookIds, now⟩ := @Fleet.callRun_tokens W fleet β call runId
  cases fact with
  | created owner token => exact @Fleet.Created.exec W route fleet _ _ (.run runId call) "" _ _ _ holds rfl
  | passed time => exact Nat.le_trans holds now.ge
  | dueToken shard passNow entry => exact ⟨now ▸ holds.1, tokens ▸ holds.2⟩
  | dueHookId shard passNow entry => exact ⟨now ▸ holds.1, hookIds ▸ holds.2⟩
  | stale shard passNow key => exact ⟨now ▸ holds.1, tokens ▸ holds.2⟩

theorem HookOf.committed (route : Routing) {β : Type} {call : RunCall β} {hook : Hook}
    {wanted : Option String} (found : HookOf owner.runId (fleet.cells owner.runId).history owner.hookId hook)
    (same : ∀ token ∈ wanted, hook.token = token) :
    (fleet.callRun W owner.runId call).2.Committed owner wanted hook := by
  have named : fleet.NamesId hook := by
    unfold Fleet.NamesId Fleet.Created
    rw [found.owner]
    exact found.created
  exact ⟨found.owner, same, named.mono (@knows_callRun W route fleet _ _ _)⟩

theorem getCommittedHook_returns {wanted : Option String} :
    (hookProtocol W route).Returns (getCommittedHook owner wanted) fleet
    fun answer fleet => ∀ hook ∈ answer, fleet.Committed owner wanted hook := by
  refine callRunChecked_returns committed_lasting fun later _ origins =>
    ⟨trivial, fun answer answered hook carried => ?_⟩
  obtain ⟨earlier, -, reach⟩ := origins.cells owner.runId
  obtain rfl := Option.mem_def.mp carried
  obtain ⟨found, same⟩ := getCommittedHook_hookOf reach answered
  exact found.committed route same

theorem resolveExpiredHookClaim_returns {claimId : String} {wanted : Option String} :
    (hookProtocol W route).Returns (resolveExpiredHookClaim owner claimId wanted) fleet
      fun answer fleet => ∀ hook ∈ answer, fleet.Committed owner wanted hook := by
  refine callRunChecked_returns committed_lasting fun later _ origins =>
    ⟨trivial, fun answer answered hook carried => ?_⟩
  obtain ⟨earlier, -, reach⟩ := origins.cells owner.runId
  obtain rfl := Option.mem_def.mp carried
  obtain ⟨found, same⟩ := resolveExpiredHookClaim_hookOf reach answered
  exact found.committed route same

theorem runIsActive_free {runId : String} : (runIsActive runId).Only FleetOp.Free :=
  .bind (callRun_free fun _ => trivial) fun _ => trivial

theorem confirmRepublished_free {withdraw : FleetProg Unit} {wanted : Option String}
    (withdraws : withdraw.Only FleetOp.Free) :
    (confirmRepublished withdraw owner wanted).Only FleetOp.Free := by
  refine .bind (callRunChecked_free fun _ => trivial) fun found => ?_
  cases found with
  | none => exact .bind withdraws fun _ => trivial
  | some hook => trivial

theorem tokenCall_free {β : Type} {call : TokenCall β} (writes : ∀ name hook, ¬ call.writes name hook)
    (observed : ∀ fleet, call.Observed fleet) : (FleetOp.tokens call).Free :=
  fun fleet => ⟨fun name hook written => absurd written (writes name hook), observed fleet⟩

theorem hookIdCall_free {β : Type} {call : HookIdCall β} (writes : ∀ name hook, ¬ call.writes name hook)
    (observed : ∀ fleet, call.Observed fleet) : (FleetOp.hookIds call).Free :=
  fun fleet => ⟨fun name hook written => absurd written (writes name hook), observed fleet⟩

theorem tokens_returns {β : Type} {call : TokenCall β} (writes : ∀ name hook, ¬ call.writes name hook)
    (observed : ∀ fleet, call.Observed fleet) :
    (hookProtocol W route).Returns (.perform (.tokens call)) fleet fun _ _ => True :=
  returns_free (.perform (tokenCall_free writes observed))

theorem hookIds_returns {β : Type} {call : HookIdCall β} (writes : ∀ name hook, ¬ call.writes name hook)
    (observed : ∀ fleet, call.Observed fleet) :
    (hookProtocol W route).Returns (.perform (.hookIds call)) fleet fun _ _ => True :=
  returns_free (.perform (hookIdCall_free writes observed))

/-- What the clock was is known to have passed. -/
theorem currentTime_returns :
    (hookProtocol W route).Returns currentTime fleet fun now fleet => HookFact.Holds fleet (.passed now) := by
  refine .perform fun later mine others _ _ _ =>
    ⟨trivial, fun choice now after run _ last more => more (.passed now) ?_⟩
  obtain ⟨rfl, rfl⟩ := Prod.mk.inj (Option.some.inj run)
  exact Nat.le_refl _

/-- Publishing the record of a committed hook writes only what the owner's run has answered. -/
theorem publishCommittedClaim_returns {observe : FleetProg (Option HookClaim)}
    {publish : HookClaim → Hook → FleetProg (Option Hook × Bool)} {withdraw : HookTokenOwner → FleetProg Unit}
    {wanted : Option String} {post : Option Hook → Fleet → Prop}
    (lasting : (hookProtocol W route).Lasting post)
    (observes : observe.Only FleetOp.Free) (withdraws : ∀ owner, (withdraw owner).Only FleetOp.Free)
    (none_ : ∀ fleet, post none fleet)
    (publishes : ∀ later observed hook, later.Committed observed.owner wanted hook →
      (hookProtocol W route).Returns (publish observed hook) later fun answer later => post answer.1 later ∧
        post (some hook) later) :
    (hookProtocol W route).Returns (publishCommittedClaim observe publish withdraw wanted) fleet post := by
  refine .bind_any (returns_free observes) fun observed later _ => ?_
  cases observed with
  | none => exact .pure fun later _ => none_ later
  | some observed =>
    refine .bind getCommittedHook_returns fun found later _ committed => ?_
    cases found with
    | none => exact .pure fun later _ => none_ later
    | some hook =>
      refine .bind (publishes later observed hook (committed hook rfl)) fun answer later _ held => ?_
      obtain ⟨raw, written⟩ := answer
      cases written with
      | false => exact .pure fun last knows => lasting raw later last knows held.1
      | true =>
        refine .bind_any (returns_free (confirmRepublished_free (withdraws _))) fun confirmed next knows => ?_
        refine .pure fun last more => ?_
        cases confirmed with
        | false => exact none_ last
        | true => exact lasting _ later last (knows.trans more) held.2

theorem mapM_ok {α : Type} {results : List (Except Thrown α)} {values : List α}
    (collected : results.mapM id = .ok values) : results = values.map .ok := by
  induction results generalizing values with
  | nil =>
    cases collected
    rfl
  | cons result results ih =>
    rw [List.mapM_cons] at collected
    obtain ⟨value, first, collected⟩ := bind_ok.mp collected
    obtain ⟨rest, others, same⟩ := bind_ok.mp collected
    obtain rfl := Except.ok.inj same
    rw [List.map_cons, ← ih others]
    exact congrArg (· :: results) first

/-- Each item of a compaction page is a deadline of the page, with what the run of its claim has answered. -/
theorem resolveClaims_returns {claims : KeyMap HookClaim} {tokenOf : String → Option String} {now : Nat}
    {page : List ((Nat × String) × ClaimDeadline)} :
    (hookProtocol W route).Returns (resolveClaims claims tokenOf now page) fleet fun items fleet =>
      ∀ item ∈ items, (item.deadline, item.item) ∈ page ∧ ∀ hook, item.committed = some hook →
        (∀ wanted ∈ tokenOf item.item.name, hook.token = wanted) ∧ fleet.NamesId hook := by
  let answered (entry : (Nat × String) × ClaimDeadline) (answer : Option Hook) (fleet : Fleet) : Prop :=
    ∀ hook ∈ answer, (∀ wanted ∈ tokenOf entry.2.name, hook.token = wanted) ∧ fleet.NamesId hook
  have lasting (entry : (Nat × String) × ClaimDeadline) : (hookProtocol W route).Lasting (answered entry) :=
    fun _ _ _ knows held hook carried => ⟨(held hook carried).1, (held hook carried).2.mono knows⟩
  refine .bind (.forkAll lasting fun entry _ => ?_) fun results later _ each => ?_
  · have nothing : (hookProtocol W route).Returns (pure none) fleet (answered entry) :=
      .pure fun _ _ hook carried => by cases carried
    split
    · exact nothing
    split
    · exact nothing
    · exact resolveExpiredHookClaim_returns.weaken fun answer _ _ committed hook carried =>
        ⟨(committed hook carried).2.1, (committed hook carried).2.2⟩
  · refine .through (fun values fleet =>
      List.Forall₂ (fun entry answer => answered entry answer fleet) page values)
      (.ofExcept fun values collected last knows => ?_) fun values next _ each =>
        .pure fun last knows item member => ?_
    · rw [mapM_ok collected, List.forall₂_map_right_iff] at each
      exact each.imp fun entry value held => lasting entry value later last knows (held value rfl)
    · obtain ⟨⟨entry, answer⟩, zipped, rfl⟩ := List.mem_map.mp member
      have held := lasting entry answer next last knows (List.forall₂_zip each zipped)
      exact ⟨(List.of_mem_zip zipped).1, fun hook committed => held hook committed⟩

theorem confirmAll_free {withdraw : String → HookTokenOwner → FleetProg Unit}
    {tokenOf : String → Option String} {published : List (String × HookTokenOwner)}
    (withdraws : ∀ name owner, (withdraw name owner).Only FleetOp.Free) :
    (confirmAll withdraw tokenOf published).Only FleetOp.Free := by
  induction published with
  | nil => trivial
  | cons first rest ih => exact .bind (confirmRepublished_free (withdraws _ _)) fun _ => ih

namespace HookIdDO

theorem releaseHookIds_free {shard : String} {hooks : List (String × HookTokenOwner)} :
    (releaseHookIds shard hooks).Only FleetOp.Free := by
  unfold releaseHookIds
  split
  · trivial
  · exact .bind (.perform (hookIdCall_free (fun _ _ written => written) fun _ => trivial)) fun _ => .ofExcept

end HookIdDO

namespace HookTokenDO

/-- What is known once a shard has been read: its records, and what an alarm pass finds due in it. -/
theorem read_returns {shard : String} :
    (hookProtocol W route).Returns (.perform (.tokens (.read shard))) fleet fun store later =>
    store.Sound ∧ (∀ (token : String) hook, store.records[token]? = some hook → later.Names token hook) ∧
      ∀ passNow, HookFact.Holds fleet (.passed passNow) →
        (∀ entry, store.claimDeadlines[entry.1]? = some entry.2 → entry.1.1 ≤ passNow →
          HookFact.Holds later (.dueToken shard passNow entry)) ∧
        (∀ key, store.Stale passNow key → HookFact.Holds later (.stale shard passNow key)) := by
  refine .perform fun later mine others knows kept _ => ⟨⟨fun _ _ written => False.elim written, trivial⟩, ?_⟩
  intro choice store after run _ last more
  obtain ⟨rfl, rfl⟩ := Prod.mk.inj (Option.some.inj run)
  have sound := kept.tokenShards shard
  refine ⟨sound, fun token hook stored => (kept.tokens shard token hook stored).mono more,
    fun passNow passed => ⟨?_, ?_⟩⟩
  · exact fun entry listed due => more (.dueToken shard passNow entry)
      ⟨knows (.passed passNow) passed, sound.scheduled.due listed due⟩
  · exact fun key stale => more (.stale shard passNow key) ⟨knows (.passed passNow) passed, stale⟩

theorem readShard_returns : (hookProtocol W route).Returns (readShard route token) fleet fun store fleet =>
    store.Sound ∧ ∀ hook, store.records[token]? = some hook → fleet.Names token hook :=
  read_returns.weaken fun _ _ _ found => ⟨found.1, found.2.1 token⟩

theorem readShard_free : (readShard route token).Only FleetOp.Free :=
  .perform (tokenCall_free (fun _ _ written => written) fun _ => trivial)

theorem withdraw_free : (withdraw token owner).Only FleetOp.Free :=
  .perform (tokenCall_free (fun _ _ written => written) fun _ => trivial)

theorem serveHook_returns {raw : Option Hook} (names : ∀ hook ∈ raw, fleet.Names token hook) :
    (hookProtocol W route).Returns (serveHook raw) fleet fun answer fleet => ∀ hook ∈ answer,
      fleet.Names token hook := by
  cases raw with
  | none => exact .pure fun last _ hook carried => by cases carried
  | some hook =>
    refine .bind_any (returns_free (.perform fun _ => trivial)) fun now next tail => ?_
    split
    · exact .pure fun last more other carried => (names other carried).mono (tail.trans more)
    · refine .bind_any (returns_free runIsActive_free) fun active final more =>
        .pure fun last most other carried => ?_
      split at carried
      · exact (names other carried).mono (tail.trans (more.trans most))
      · cases carried

/-- What a repair by `get` or by an alarm publishes, and what it finds stored. -/
theorem get_returns : (hookProtocol W route).Returns (get route token) fleet
    fun answer fleet => ∀ hook ∈ answer, fleet.Names token hook := by
  have published (later : Fleet) : (hookProtocol W route).Returns (CelldWorld.publishCommittedClaim
      ((fun store => store.claims[token]?) <$> readShard route token)
      (fun observed hook => .perform (.tokens (.publishCommittedClaim token observed hook)))
        (withdraw token) (some token)) later
      fun answer fleet => ∀ hook ∈ answer, fleet.Names token hook := by
    refine publishCommittedClaim_returns names_lasting (.bind readShard_free fun _ => trivial)
      (fun _ => withdraw_free)
      (fun _ hook carried => by cases carried) fun later observed hook committed => ?_
    refine .perform fun last mine others knows origins _ =>
      ⟨⟨?_, trivial⟩, fun choice answer after run tail final more => ?_⟩
    · rintro name written ⟨rfl, rfl⟩
      exact committed.names.mono knows
    obtain ⟨same, rfl⟩ := Prod.mk.inj (Option.some.inj run)
    refine ⟨fun raw carried => ?_, fun other same => ?_⟩
    · subst same
      rcases IndexStore.publishCommittedClaim_answer carried with rfl | stored
      · exact committed.names.mono (knows.trans (tail.trans more))
      · exact (origins.tokens _ token raw stored).mono (tail.trans more)
    · obtain rfl := Option.some.inj same
      exact committed.names.mono (knows.trans (tail.trans more))
  refine .bind readShard_returns fun store later _ ⟨_, names⟩ => ?_
  simp only
  split
  · rename_i indexed stored
    refine @serveHook_returns W route later token (some indexed) fun hook carried => ?_
    obtain rfl := Option.mem_some.mp carried
    exact names indexed stored
  · exact .bind (published later) fun raw later _ names => serveHook_returns names

/-- The claimer's hook was created with the token that the victim gives up. -/
theorem forceDisposeHook_returns {victim claimedBy : HookTokenOwner}
    (created : fleet.Created claimedBy token) :
    (hookProtocol W route).Returns (forceDisposeHook route victim token claimedBy) fleet fun _ _ => True := by
  refine .remote (.bind_any (.perform_any fun later mine knows => ?_) fun disposed later _ => ?_) any_lasting
  · exact knows (.created claimedBy token) created
  · refine .bind_any (.ofExcept fun _ _ _ _ => trivial) fun journaled next _ => ?_
    exact .map_any (returns_free HookIdDO.releaseHookIds_free).discard

/-- A takeover whose claimer's hook was created is rolled forward. -/
theorem rollForward_returns {intent : HookTakeover} {hook : Option Hook} (own : intent.deadlineKey.2 = token)
    (created : fleet.Created intent.claimer token)
    (names : ∀ written ∈ hook, fleet.Names token written) :
    (hookProtocol W route).Returns (rollForward route token intent hook) fleet fun _ _ => True := by
  have repointed (later : Fleet) (knows : (hookProtocol W route).Knows fleet later) :
    (hookProtocol W route).Returns
      (do
        let written ← Prog.perform (.tokens (.repointRecord token intent hook))
        if written then do
          let _ ← confirmRepublished (withdraw token intent.claimer) intent.claimer (some token)) later
            fun _ _ => True := by
    refine .bind_any (.perform_any fun last mine tail => ⟨?_, own⟩) fun written next tail => ?_
    · rintro name written ⟨rfl, carried⟩
      exact (names written carried).mono (knows.trans tail)
    · split
      · exact .map_any (returns_free (confirmRepublished_free withdraw_free))
      · exact .pure fun _ _ => trivial
  unfold rollForward
  split
  · exact .bind_any (forceDisposeHook_returns created) fun _ later knows => repointed later knows
  · exact repointed fleet .refl

/-- What a settler reports of the claimer's creation, if it reports anything. -/
def Reported (fleet : Fleet) (token : String) (known : Option TakeoverMatch) (committedHook : Option Hook) :
    Prop :=
  ∀ hook ∈ committedHook, fleet.Names token hook ∧ ∀ claimer ∈ known, fleet.Created claimer.claimer token

/-- What the claimer's run answers of a journaled creation. -/
def Resolved (fleet : Fleet) (token : String) (claimer : HookTokenOwner)
    (resolution : ForcedClaimResolution) : Prop :=
  resolution.journaled = true → fleet.Created claimer token ∧ ∀ hook ∈ resolution.hook, fleet.Names token hook

theorem resolved_lasting :
    (hookProtocol W route).Lasting fun resolution fleet => Resolved fleet token owner resolution :=
  fun _ _ _ knows resolved journaled =>
    ⟨knows (.created owner token) (resolved journaled).1, fun hook carried =>
      ((resolved journaled).2 hook carried).mono knows⟩

theorem settleTakeover_returns {known : Option TakeoverMatch} {committedHook : Option Hook}
    (reported : Reported fleet token known committedHook) :
    (hookProtocol W route).Returns (settleTakeover route token known committedHook) fleet
      fun answer fleet => ∀ owner ∈ answer, fleet.Created owner token := by
  have settled (later : Fleet) : (hookProtocol W route).Returns (do
      let settled ← readShard route token
      pure (settled.records[token]?.map hookOwner)) later
      fun answer fleet => ∀ owner ∈ answer, fleet.Created owner token := by
    refine .bind readShard_returns fun store next _ ⟨_, names⟩ => .pure fun last knows owner carried => ?_
    obtain ⟨hook, stored, rfl⟩ := Option.map_eq_some_iff.mp carried
    exact ((names hook stored).mono knows).2
  unfold settleTakeover
  refine .bind readShard_returns fun store later knows ⟨sound, _⟩ => ?_
  split
  · rename_i intent pending
    obtain ⟨stored, matching⟩ := Option.filter_eq_some_iff.mp pending
    have own : intent.deadlineKey.2 = token := congrArg Prod.snd (sound.pending token intent stored).1
    have decides (resolution : ForcedClaimResolution) (next : Fleet)
      (resolved : Resolved next token intent.claimer resolution) :
        (hookProtocol W route).Returns (do
          if resolution.journaled then rollForward route token intent resolution.hook
          else Prog.perform (.tokens (.dropTakeover token intent))
          let settled ← readShard route token
          pure (settled.records[token]?.map hookOwner)) next fun answer fleet => ∀ owner ∈ answer,
            fleet.Created owner token := by
      simp only
      split
      · rename_i journaled
        obtain ⟨created, names⟩ := resolved journaled
        exact .bind_any (rollForward_returns own created names) fun _ last _ => settled last
      · exact .bind_any (tokens_returns (fun _ _ written => written) fun _ => own) fun _ last _ => settled last
    split
    · rename_i hook carried
      obtain ⟨carried, same⟩ := Option.filter_eq_some_iff.mp carried
      obtain ⟨names, created⟩ := reported hook carried
      obtain ⟨claimer, knownClaimer, -⟩ := Option.bind_eq_some_iff.mp (of_decide_eq_true same)
      rw [knownClaimer, Option.all_some] at matching
      have claims : intent.claimer = claimer.claimer := of_decide_eq_true (Bool.and_eq_true_iff.mp matching).1
      refine decides ⟨true, some hook⟩ later fun _ => ⟨?_, fun written same => ?_⟩
      · rw [claims]
        exact knows (.created claimer.claimer token) (created claimer knownClaimer)
      · obtain rfl := Option.mem_some.mp same
        exact names.mono knows
    · refine .bind (callRunChecked_returns resolved_lasting fun next _ origins =>
        ⟨trivial, fun answer answered journaled => ?_⟩)
        fun resolution next _ resolved => decides resolution next resolved
      obtain ⟨earlier, -, reach⟩ := origins.cells intent.claimer.runId
      obtain ⟨created, found⟩ := resolveForcedHookClaim_created reach answered journaled
      refine ⟨@knows_callRun W route next _ _ _ (.created intent.claimer token) created, fun hook carried => ?_⟩
      obtain ⟨hookOf, sameToken⟩ := found hook carried
      refine (hookOf.committed route fun wanted asked => ?_).names
      exact Option.mem_some.mp asked ▸ sameToken
  · exact settled later

/-- A settler that reports nothing. -/
theorem settle_returns {known : Option TakeoverMatch} :
    (hookProtocol W route).Returns (settleTakeover route token known none) fleet fun _ _ => True :=
  (settleTakeover_returns fun _ carried => by cases carried).any

theorem reserveToken_returns {proposedClaimId : String} {passes : Nat} :
    (hookProtocol W route).Returns (reserveToken route token owner proposedClaimId passes) fleet fun _ _ =>
      True := by
  induction passes generalizing fleet with
  | zero => exact .throw
  | succ passes ih =>
    refine .bind_any (returns_free readShard_free) fun store later _ => ?_
    refine .bind_any (returns_free (.perform fun _ => trivial)) fun now later _ => ?_
    have reserves (committed : Option Hook) (expired : Option HookClaim) (later : Fleet) :
      (hookProtocol W route).Returns (do
        let step ← Prog.perform (.tokens (.reserve token owner proposedClaimId expired committed))
        step.resume (do
          let _ ← settleTakeover route token none none
          reserveToken route token owner proposedClaimId passes)
            (reserveToken route token owner proposedClaimId passes))
        later fun _ _ => True := by
      refine .bind_any (tokens_returns (fun _ _ written => written) fun _ => trivial) fun step next _ => ?_
      cases step with
      | done result => exact .pure fun _ _ => trivial
      | settle => exact .bind_any settle_returns fun _ _ _ => ih
      | again => exact ih
    simp only
    split
    · exact .bind resolveExpiredHookClaim_returns fun committed last _ _ => reserves committed _ last
    · exact reserves none _ later

/-- The creation of another hook is fenced, or published where it has committed. -/
theorem preempt_returns {observed : HookClaim} :
    (hookProtocol W route).Returns (preempt token observed) fleet fun _ _ => True := by
  refine .bind resolveExpiredHookClaim_returns fun hook later _ committed => ?_
  refine .bind_any (.perform_any fun last mine knows => ⟨?_, trivial⟩) fun published next _ => ?_
  · rintro name written ⟨rfl, carried⟩
    exact (committed written carried).names.mono knows
  · split
    · exact .map_any (returns_free (confirmRepublished_free withdraw_free))
    · exact .pure fun _ _ => trivial

theorem forceReserve_returns {proposedClaimId : String} {preempts : Bool} {passes : Nat} :
    (hookProtocol W route).Returns (forceReserve W route token owner proposedClaimId preempts passes) fleet
      fun _ _ => True := by
  induction passes generalizing fleet with
  | zero => exact .throw
  | succ passes ih =>
    have clock (later : Fleet) : (hookProtocol W route).Returns currentTime later fun _ _ => True :=
      returns_free (.perform fun _ => trivial)
    refine .bind_any (returns_free readShard_free) fun store later _ => ?_
    split
    · split
      · exact .pure fun _ _ => trivial
      · refine .bind_any (clock _) fun now later _ => ?_
        split
        · exact .pure fun _ _ => trivial
        · exact .bind_any settle_returns fun _ _ _ => ih
    split
    · split
      · refine .bind_any (clock _) fun now later _ => ?_
        split
        · exact .pure fun _ _ => trivial
        · exact .bind_any preempt_returns fun _ _ _ => ih
      · refine .bind_any reserveToken_returns fun reserved later _ => ?_
        cases reserved with
        | claimed claimId => exact .pure fun _ _ => trivial
        | held holder =>
          simp only
          split
          · exact .pure fun _ _ => trivial
          · exact ih
    · simp only
      split
      · exact .pure fun _ _ => trivial
      refine .bind_any (returns_free (callRun_free fun _ => trivial)) fun described later _ => ?_
      split
      · exact .pure fun _ _ => trivial
      refine .bind_any (clock _) fun now later _ => ?_
      refine .bind_any (tokens_returns (fun _ _ written => written) fun _ => trivial) fun intent later _ => ?_
      cases intent with
      | some intent => exact .pure fun _ _ => trivial
      | none => exact ih

theorem releaseTokens_free {shard : String} {hooks : List (String × HookTokenOwner)} {runEnded : Bool} :
    (releaseTokens shard hooks runEnded).Only FleetOp.Free := by
  unfold releaseTokens
  split
  · trivial
  · exact .bind (.perform (tokenCall_free (fun _ _ written => written) fun _ => trivial)) fun _ => .ofExcept

theorem finalizeToken_returns {hook : Hook} {claimId : Option String} (names : fleet.Names token hook) :
    (hookProtocol W route).Returns (finalizeToken route token hook owner claimId) fleet fun _ _ => True := by
  refine .bind_any (returns_free runIsActive_free) fun active later knows => ?_
  refine .bind_any (returns_free (.perform fun _ => trivial)) fun now next tail => ?_
  split
  · exact .map_any (returns_free releaseTokens_free)
  · refine .bind_any (.perform_any fun last mine more => ⟨?_, trivial⟩) fun stored last _ => ?_
    · rintro name written ⟨rfl, rfl⟩
      exact names.mono (knows.trans (tail.trans more))
    · exact .ofExcept fun _ _ _ _ => trivial

theorem releaseClaim_free {claimId : String} : (releaseClaim token owner claimId).Only FleetOp.Free :=
  .perform (tokenCall_free (fun _ _ written => written) fun _ => trivial)

theorem compactAll_returns {shard : String} {store : HookTokenStore} {passNow : Nat}
    {page : List ((Nat × String) × ClaimDeadline)}
    (due : ∀ entry ∈ page, HookFact.Holds fleet (.dueToken shard passNow entry)) :
    (hookProtocol W route).Returns (compactAll shard store passNow page) fleet fun _ _ => True := by
  refine .bind resolveClaims_returns fun items later knows answered => ?_
  refine .bind_any (.perform_any fun last mine tail => ⟨?_, ?_⟩) fun published next _ => ?_
  · rintro name hook ⟨item, member, rfl, committed⟩
    obtain ⟨same, named⟩ := (answered item member).2 hook committed
    have same := same item.item.name rfl
    exact ⟨same, same ▸ named.mono tail⟩
  · intro item member
    obtain ⟨listed, -⟩ := answered item member
    exact (tail _ (knows (.dueToken shard passNow _) (due _ listed))).2
  · exact returns_free (confirmAll_free fun _ _ => withdraw_free)

theorem compactTakeovers_returns {shard : String} {page : List ((Nat × String) × String)} {passNow : Nat}
    (passed : HookFact.Holds fleet (.passed passNow))
    (due : ∀ entry ∈ page, entry.1.1 ≤ passNow ∧ entry.1.2 = entry.2) :
    (hookProtocol W route).Returns (compactTakeovers route shard page) fleet fun _ _ => True := by
  unfold compactTakeovers
  split
  · exact .pure fun _ _ => trivial
  refine .bind read_returns fun store later _ ⟨_, _, found⟩ => ?_
  have settles (stale : List ((Nat × String) × String)) (later : Fleet) : (hookProtocol W route).Returns (do
      let settled ← Prog.forkAll ((page.filter (· ∉ stale)).map fun entry =>
        settleTakeover route entry.2 none none)
      let _ ← Prog.ofExcept (settled.mapM id)) later fun _ _ => True := by
    refine .bind (.forkAll (fun _ => any_lasting) fun entry _ => settle_returns) fun settled next _ _ => ?_
    exact .map_any (.ofExcept fun _ _ _ _ => trivial)
  have unowned : ∀ entry ∈ staleTakeovers store page, HookFact.Holds later (.stale shard passNow entry.1) := by
    intro entry member
    obtain ⟨listed, stale⟩ := List.mem_filter.mp member
    obtain ⟨dueTime, named⟩ := due entry listed
    refine (found passNow passed).2 entry.1 ⟨dueTime, fun intent pending => ?_⟩
    rw [named] at pending
    simpa [Option.mem_def.mp pending] using stale
  simp only
  split
  · refine .bind_any (.perform_any fun last mine knows => ⟨fun _ _ written => False.elim written, ?_⟩)
      fun _ next _ => settles _ next
    exact ⟨passNow, fun entry member => (knows (.stale shard passNow entry.1) (unowned entry member)).2⟩
  · exact settles _ later

theorem scanDeadlines_due {ν : Type} {deadlines : DeadlineMap ν} {now : Nat} {entry : (Nat × String) × ν}
    (member : entry ∈ (scanDeadlines deadlines now).due) :
    deadlines[entry.1]? = some entry.2 ∧ entry.1.1 ≤ now := by
  have taken := List.mem_of_mem_take member
  refine ⟨?_, of_decide_eq_true (List.all_eq_true.mp List.all_takeWhile entry taken)⟩
  exact Std.ExtTreeMap.mem_toList_iff_getElem?_eq_some.mp
    (List.mem_of_mem_take ((List.takeWhile_prefix _).mem taken))

theorem alarm_returns {shard : String} {clears : Bool} :
    (hookProtocol W route).Returns (alarm route shard clears) fleet fun _ _ => True := by
  have passes : (hookProtocol W route).Returns (alarmPass route shard clears) fleet fun _ _ => True := by
    refine .bind currentTime_returns fun now later _ passed => ?_
    refine .bind_any (tokens_returns (fun _ _ written => written) fun _ => trivial) fun firing next knows => ?_
    have started := knows (.passed now) passed
    refine .bind read_returns fun store later knows ⟨sound, _, found⟩ => ?_
    have passed := knows (.passed now) started
    have due : ∀ entry ∈ (scanDeadlines store.claimDeadlines now).due,
        HookFact.Holds later (.dueToken shard now entry) := by
      intro entry member
      obtain ⟨listed, dueTime⟩ := scanDeadlines_due member
      exact (found now started).1 entry listed dueTime
    have takeovers : ∀ entry ∈ (scanDeadlines store.takeoverDeadlines now).due, entry.1.1 ≤ now ∧
        entry.1.2 = entry.2 := by
      intro entry member
      obtain ⟨listed, dueTime⟩ := scanDeadlines_due member
      exact ⟨dueTime, sound.named entry.1 entry.2 listed⟩
    refine .bind_any (tokens_returns (fun _ _ written => written) fun _ => trivial) fun observed next knows => ?_
    have passed := knows (.passed now) passed
    refine .bind_any (compactAll_returns fun entry member =>
      knows (.dueToken shard now entry) (due entry member)) fun _ later knows => ?_
    have passed := knows (.passed now) passed
    have rest (last : Fleet) (passed : HookFact.Holds last (.passed now)) : (hookProtocol W route).Returns (do
        compactTakeovers route shard (scanDeadlines store.takeoverDeadlines now).due
        Prog.perform (.tokens (.rearm shard ((scanDeadlines store.claimDeadlines now).more ||
            (scanDeadlines store.retainedDeadlines now).more || (scanDeadlines store.takeoverDeadlines now).more)
          [(scanDeadlines store.claimDeadlines now).next, (scanDeadlines store.retainedDeadlines now).next,
            (scanDeadlines store.takeoverDeadlines now).next] firing.isNone))) last fun _ _ => True :=
      .bind_any (compactTakeovers_returns passed takeovers) fun _ next _ =>
        tokens_returns (fun _ _ written => written) fun _ => trivial
    simp only
    split
    · exact .bind_any (tokens_returns (fun _ _ written => written) fun _ => trivial) fun _ next knows =>
        rest next (knows (.passed now) passed)
    · exact rest later passed
  refine .bind_any passes.attempt_any fun ended later _ => ?_
  cases ended with
  | ok => exact .pure fun _ _ => trivial
  | error => exact tokens_returns (fun _ _ written => written) fun _ => trivial

end HookTokenDO

namespace HookIdDO

theorem readShard_free : (readShard route hookId).Only FleetOp.Free :=
  .perform (hookIdCall_free (fun _ _ written => written) fun _ => trivial)

theorem withdraw_free : (withdraw hookId owner).Only FleetOp.Free :=
  .perform (hookIdCall_free (fun _ _ written => written) fun _ => trivial)

theorem serveHook_returns {raw : Option Hook} :
    (hookProtocol W route).Returns (serveHook raw) fleet fun _ _ => True := by
  cases raw with
  | none => exact .pure fun _ _ => trivial
  | some hook => exact .map_any (returns_free runIsActive_free)

theorem get_returns : (hookProtocol W route).Returns (get route hookId) fleet fun _ _ => True := by
  refine .bind_any (returns_free readShard_free) fun store later _ => ?_
  simp only
  split
  · rename_i indexed stored
    exact @serveHook_returns W route later (some indexed)
  · refine .bind_any (publishCommittedClaim_returns any_lasting (.bind readShard_free fun _ => trivial)
      (fun _ => withdraw_free)
      (fun _ => trivial) fun last observed hook committed => ?_) fun raw next _ => serveHook_returns
    refine .perform fun final mine others knows _ _ => ⟨⟨?_, trivial⟩, fun _ _ _ _ _ _ _ => ⟨trivial, trivial⟩⟩
    rintro name written ⟨rfl, rfl⟩
    exact committed.2.2.mono knows

theorem reserveHookId_returns {proposedClaimId : String} {passes : Nat} :
    (hookProtocol W route).Returns (reserveHookId route hookId owner proposedClaimId passes) fleet fun _ _ =>
      True := by
  induction passes generalizing fleet with
  | zero => exact .throw
  | succ passes ih =>
    refine .bind_any (returns_free readShard_free) fun store later _ => ?_
    refine .bind_any (returns_free (.perform fun _ => trivial)) fun now later _ => ?_
    have reserves (committed : Option Hook) (expired : Option HookClaim) (later : Fleet) :
      (hookProtocol W route).Returns (do
        let step ← Prog.perform (.hookIds (.reserve hookId owner proposedClaimId expired committed))
        step.resume (reserveHookId route hookId owner proposedClaimId passes)
          (reserveHookId route hookId owner proposedClaimId passes)) later fun _ _ => True := by
      refine .bind_any (hookIds_returns (fun _ _ written => written) fun _ => trivial) fun step next _ => ?_
      cases step with
      | done result => exact .pure fun _ _ => trivial
      | settle => exact ih
      | again => exact ih
    simp only
    split
    · exact .bind resolveExpiredHookClaim_returns fun committed last _ _ => reserves committed _ last
    · exact reserves none _ later

theorem publish_returns {hook : Hook} {claimId : Option String} (names : fleet.NamesId hook) :
    (hookProtocol W route).Returns (publish route hookId hook owner claimId) fleet fun _ _ => True := by
  refine .bind_any (returns_free runIsActive_free) fun active later knows => ?_
  split
  · exact .map_any (returns_free releaseHookIds_free)
  · refine .bind_any (.perform_any fun last mine tail => ⟨?_, trivial⟩) fun published last _ => ?_
    · rintro name written ⟨rfl, rfl⟩
      exact names.mono (knows.trans tail)
    · exact .map_any (.ofExcept fun _ _ _ _ => trivial)

theorem releaseClaim_free {claimId : String} : (releaseClaim hookId owner claimId).Only FleetOp.Free :=
  .perform (hookIdCall_free (fun _ _ written => written) fun _ => trivial)

/-- What an alarm pass finds due is known to be. -/
theorem read_returns {shard : String} {passNow : Nat} (passed : HookFact.Holds fleet (.passed passNow)) :
    (hookProtocol W route).Returns (.perform (.hookIds (.read shard))) fleet fun store later =>
      ∀ entry ∈ dueClaims store passNow, HookFact.Holds later (.dueHookId shard passNow entry) := by
  refine .perform fun later mine others knows kept _ => ⟨⟨fun _ _ written => False.elim written, trivial⟩, ?_⟩
  intro choice store after run _ last more entry member
  obtain ⟨rfl, rfl⟩ := Prod.mk.inj (Option.some.inj run)
  obtain ⟨listed, due⟩ := List.mem_filter.mp (List.mem_of_mem_take member)
  refine more (.dueHookId shard passNow entry) ⟨knows (.passed passNow) passed,
    (kept.hookIdShards shard).due ?_ (of_decide_eq_true due)⟩
  exact Std.ExtTreeMap.mem_toList_iff_getElem?_eq_some.mp listed

theorem alarm_returns {shard : String} :
    (hookProtocol W route).Returns (alarm shard) fleet fun _ _ => True := by
  have passes : (hookProtocol W route).Returns (compactAll shard) fleet fun _ _ => True := by
    refine .bind currentTime_returns fun now later _ passed => ?_
    refine .bind (read_returns passed) fun store later _ due => ?_
    refine .bind resolveClaims_returns fun items next knows answered => ?_
    refine .bind_any (.perform_any fun last mine tail => ⟨?_, ?_⟩) fun published next _ => ?_
    · rintro name hook ⟨item, member, rfl, committed⟩
      exact ((answered item member).2 hook committed).2.mono tail
    · intro item member
      obtain ⟨listed, -⟩ := answered item member
      exact (tail _ (knows (.dueHookId shard now (item.deadline, item.item))
        (due _ (List.mem_of_mem_take listed)))).2
    · exact returns_free (confirmAll_free fun _ _ => withdraw_free)
  refine .bind_any passes.attempt_any fun ended later _ => ?_
  cases ended with
  | ok => exact .pure fun _ _ => trivial
  | error => exact hookIds_returns (fun _ _ written => written) fun _ => trivial

end HookIdDO

end CelldWorld
