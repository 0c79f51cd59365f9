import CelldWorld.HookClients
import CelldWorld.HookAnswers
import CelldWorld.HookTakeovers
import CelldWorld.Library.Returns

namespace CelldWorld
open Interleaving

namespace Fleet

/-- The hook was created with the token in the run of its owner. -/
def Created (fleet : Fleet) (owner : HookTokenOwner) (token : String) : Prop :=
  CreatedIn (fleet.cells owner.runId).history owner.hookId token

/-- The record names a hook that was created with the token. -/
def Names (fleet : Fleet) (token : String) (hook : Hook) : Prop :=
  hook.token = token ∧ fleet.Created (hookOwner hook) token

/-- The record of a hook ID names a hook that was created with the token it carries. -/
def NamesId (fleet : Fleet) (hook : Hook) : Prop := fleet.Created (hookOwner hook) hook.token

/-- Every index record names a hook that was created, and every forced disposal a claimer
that was, if clients cannot name one. -/
structure Origins (W : WorldContract) (fleet : Fleet) : Prop where
  cells : ∀ runId, ∃ earlier ≤ fleet.now,
    CellReach W runId (· ≤ ·) earlier (fleet.cells runId).store (fleet.cells runId).history
  tokens : ∀ shard (token : String) hook, (fleet.tokens shard).records[token]? = some hook →
    fleet.Names token hook
  hookIds : ∀ shard (hookId : String) hook,
    (fleet.hookIds shard).records[hookId]? = some hook → fleet.NamesId hook
  disposals : W.DropsForceClaims → ∀ runId, ∀ event ∈ (fleet.cells runId).history, ∀ hookId token claimedBy,
    event.data = .hookDisposed hookId token (some claimedBy) → ∃ taken, token = some taken ∧
      fleet.Created claimedBy taken

end Fleet

def RunCall.Needs (fleet : Fleet) {β : Type} : RunCall β → Prop
  | .forceDisposeHook _ token claimedBy => fleet.Created claimedBy token
  | _ => True

/-- What a party must know to perform an operation. -/
def FleetOp.Needs (fleet : Fleet) {β : Type} : FleetOp β → Prop
  | .run _ call => call.Needs fleet
  | .tokens call => (∀ name hook, call.writes name hook → fleet.Names name hook) ∧ call.Observed fleet
  | .hookIds call => (∀ name hook, call.writes name hook → fleet.NamesId hook) ∧ call.Observed fleet
  | _ => True

section Steps
variable {W : WorldContract} {route : Routing} {fleet after : Fleet} {β : Type} {op : FleetOp β}
    {choice : String} {answer : β}
variable {owner : HookTokenOwner} {token : String} {hook : Hook}

theorem RunCall.Needs.forced {call : RunCall β} {id : String} {claimedBy : HookTokenOwner}
    (needs : call.Needs fleet)
    (sends : call.op = some (.forceDisposeHook id token claimedBy)) : fleet.Created claimedBy token := by
  cases call with
  | forceDisposeHook =>
    cases sends
    exact needs
  | maintain op =>
    simp only [RunCall.op] at sends
    split at sends
    · rename_i maintains
      cases sends
      cases maintains
    · cases sends
  | _ => cases sends

/-- Only the called cell changes, by the transaction of the call. -/
theorem Fleet.callRun_cells (call : RunCall β) (runId other : String) :
    ((fleet.callRun W runId call).2.cells other = fleet.cells other ∧ (other ≠ runId ∨ call.op = none)) ∨
      ∃ op, call.op = some op ∧ other = runId ∧ (fleet.callRun W runId call).2.cells other =
        { store := op.run W runId fleet.now (fleet.cells runId).store
          history := (fleet.cells runId).history ++ appended W (fleet.cells runId).store
            (op.run W runId fleet.now (fleet.cells runId).store) } := by
  cases sends : call.op with
  | none => exact .inl ⟨by simp only [callRun, sends], .inr rfl⟩
  | some op =>
    by_cases same : other = runId
    · exact .inr ⟨op, rfl, same, by simp only [callRun, sends, runCell, if_pos same]⟩
    · exact .inl ⟨by simp only [callRun, sends, runCell, if_neg same], .inl same⟩

theorem Fleet.callTokens_cells (call : TokenCall β) : (fleet.callTokens route call).2.cells = fleet.cells ∧
    (fleet.callTokens route call).2.hookIds = fleet.hookIds ∧
      (fleet.callTokens route call).2.now = fleet.now := by
  cases call <;> first | exact ⟨rfl, rfl, rfl⟩ | (simp only [callTokens]; split <;> exact ⟨rfl, rfl, rfl⟩)

theorem Fleet.callHookIds_cells (call : HookIdCall β) : (fleet.callHookIds route call).2.cells = fleet.cells ∧
    (fleet.callHookIds route call).2.tokens = fleet.tokens ∧
      (fleet.callHookIds route call).2.now = fleet.now := by
  cases call <;> first | exact ⟨rfl, rfl, rfl⟩ | (simp only [callHookIds]; split <;> exact ⟨rfl, rfl, rfl⟩)

theorem Fleet.callRun_tokens (call : RunCall β) (runId : String) :
    (fleet.callRun W runId call).2.tokens = fleet.tokens ∧
    (fleet.callRun W runId call).2.hookIds = fleet.hookIds ∧ (fleet.callRun W runId call).2.now = fleet.now := by
  unfold callRun
  simp only
  split <;> exact ⟨rfl, rfl, rfl⟩

/-- A creation stays in the history of its run. -/
theorem Fleet.Created.exec (created : fleet.Created owner token)
    (run : fleet.exec W route op choice = some (answer, after)) : after.Created owner token := by
  have same := congrArg Prod.snd (Option.some.inj run)
  have untouched (cells : after.cells = fleet.cells) : after.Created owner token := by
    unfold Created
    exact cells ▸ created
  cases op with
  | here call =>
    subst same
    cases call <;> exact untouched rfl
  | run runId call =>
    have moved := @callRun_cells W fleet _ call runId owner.runId
    rw [same] at moved
    unfold Created
    rcases moved with ⟨kept, -⟩ | ⟨op, -, called, moved⟩
    · exact kept ▸ created
    · rw [moved]
      exact called ▸ created.append
  | tokens call =>
    subst same
    exact untouched (callTokens_cells call).1
  | hookIds call =>
    subst same
    exact untouched (callHookIds_cells call).1

/-- One operation keeps the indexes sound. -/
theorem Fleet.Origins.exec (origins : fleet.Origins W) (needs : op.Needs fleet)
    (run : fleet.exec W route op choice = some (answer, after)) : after.Origins W := by
  have kept (owner : HookTokenOwner) (token : String) (created : fleet.Created owner token) :
      after.Created owner token :=
    created.exec run
  have names (token : String) (hook : Hook) (named : fleet.Names token hook) : after.Names token hook :=
    ⟨named.1, kept _ _ named.2⟩
  have disposals (same : after.cells = fleet.cells) (drops : W.DropsForceClaims) :
      ∀ runId, ∀ event ∈ (after.cells runId).history, ∀ hookId token claimedBy,
        event.data = .hookDisposed hookId token (some claimedBy) →
          ∃ taken, token = some taken ∧ after.Created claimedBy taken := by
    intro runId event member hookId token claimedBy data
    obtain ⟨taken, same, created⟩ :=
      origins.disposals drops runId event (same ▸ member) hookId token claimedBy data
    exact ⟨taken, same, kept _ _ created⟩
  have cells (same : after.cells = fleet.cells) (tick : fleet.now ≤ after.now) : ∀ runId, ∃ earlier ≤ after.now,
      CellReach W runId (· ≤ ·) earlier (after.cells runId).store (after.cells runId).history := by
    intro runId
    obtain ⟨earlier, bound, reach⟩ := origins.cells runId
    exact ⟨earlier, bound.trans tick, same ▸ reach⟩
  have same := congrArg Prod.snd (Option.some.inj run)
  cases op with
  | here call =>
    have frame : after.cells = fleet.cells ∧ after.tokens = fleet.tokens ∧ after.hookIds = fleet.hookIds ∧
        fleet.now ≤ after.now := by
      subst same
      cases call with
      | elapse ms => exact ⟨rfl, rfl, rfl, Nat.le_add_right _ _⟩
      | _ => exact ⟨rfl, rfl, rfl, Nat.le_refl _⟩
    obtain ⟨sameCells, sameTokens, sameIds, tick⟩ := frame
    refine ⟨cells sameCells tick, fun shard token hook stored => ?_, fun shard id hook stored => ?_,
      disposals sameCells⟩
    · exact names token hook (origins.tokens shard token hook (sameTokens ▸ stored))
    · exact kept _ _ (origins.hookIds shard id hook (sameIds ▸ stored))
  | tokens call =>
    obtain ⟨sameCells, sameIds, sameTime⟩ := @callTokens_cells route fleet _ call
    rw [same] at sameCells sameIds sameTime
    refine ⟨cells sameCells sameTime.ge, fun shard token hook stored => ?_, fun shard id hook stored => ?_,
      disposals sameCells⟩
    · rcases @callTokens_writes route fleet _ call shard token hook (same ▸ stored) with earlier | written
      · exact names token hook (origins.tokens shard token hook earlier)
      · exact names token hook (needs.1 token hook written)
    · exact kept _ _ (origins.hookIds shard id hook (sameIds ▸ stored))
  | hookIds call =>
    obtain ⟨sameCells, sameTokens, sameTime⟩ := @callHookIds_cells route fleet _ call
    rw [same] at sameCells sameTokens sameTime
    refine ⟨cells sameCells sameTime.ge, fun shard token hook stored => ?_, fun shard id hook stored => ?_,
      disposals sameCells⟩
    · exact names token hook (origins.tokens shard token hook (sameTokens ▸ stored))
    · rcases @callHookIds_writes route fleet _ call shard id hook (same ▸ stored) with earlier | written
      · exact kept _ _ (origins.hookIds shard id hook earlier)
      · exact kept _ _ (needs.1 id hook written)
  | run runId call =>
    obtain ⟨sameTokens, sameIds, sameTime⟩ := @callRun_tokens W fleet _ call runId
    rw [same] at sameTokens sameIds sameTime
    refine ⟨fun other => ?_, fun shard token hook stored => ?_, fun shard id hook stored => ?_,
      fun drops other => ?_⟩
    · obtain ⟨earlier, bound, reach⟩ := origins.cells other
      have moved := @callRun_cells W fleet _ call runId other
      rw [same] at moved
      rcases moved with ⟨untouched, -⟩ | ⟨op, -, rfl, called⟩
      · rw [untouched, sameTime]
        exact ⟨earlier, bound, reach⟩
      · rw [called, sameTime]
        exact ⟨fleet.now, Nat.le_refl _, .next op reach bound⟩
    · exact names token hook (origins.tokens shard token hook (sameTokens ▸ stored))
    · exact kept _ _ (origins.hookIds shard id hook (sameIds ▸ stored))
    · intro event member id token claimedBy data
      have moved := @callRun_cells W fleet _ call runId other
      rw [same] at moved
      have old (held : event ∈ (fleet.cells other).history) : ∃ taken, token = some taken ∧
          after.Created claimedBy taken := by
        obtain ⟨taken, sameToken, created⟩ := origins.disposals drops other event held id token claimedBy data
        exact ⟨taken, sameToken, kept _ _ created⟩
      rcases moved with ⟨untouched, -⟩ | ⟨op, sends, rfl, called⟩
      · exact old (untouched ▸ member)
      rw [called] at member
      rcases List.mem_append.mp member with held | appended
      · exact old held
      · obtain ⟨earlier, bound, reach⟩ := origins.cells other
        obtain ⟨taken, sameToken, rfl⟩ := CellOp.disposes drops reach appended data
        exact ⟨taken, sameToken, kept _ _ (needs.forced sends)⟩

/-- One operation is a transaction of every token shard. -/
theorem Fleet.exec_tokens (sound : ∀ shard, (fleet.tokens shard).Sound) (needs : op.Needs fleet)
    (run : fleet.exec W route op choice = some (answer, after)) (shard : String) :
    TokenWrites fleet.now (fleet.tokens shard) (after.tokens shard) := by
  have same := congrArg Prod.snd (Option.some.inj run)
  subst same
  have unchanged {last : Fleet} (tokens : last.tokens = fleet.tokens) :
      TokenWrites fleet.now (fleet.tokens shard) (last.tokens shard) := by
    rw [tokens]
  cases op with
  | here call => cases call <;> exact unchanged rfl
  | run runId call => exact unchanged (callRun_tokens call runId).1
  | tokens call => exact callTokens_scheduled needs.2 sound shard
  | hookIds call => exact unchanged (callHookIds_cells call).2.1

theorem Fleet.exec_hookIds (scheduled : ∀ shard, (fleet.hookIds shard).Scheduled) (needs : op.Needs fleet)
    (run : fleet.exec W route op choice = some (answer, after)) (shard : String) :
    IndexWrites fleet.now (fun _ => True) (fleet.hookIds shard) (after.hookIds shard) := by
  have same := congrArg Prod.snd (Option.some.inj run)
  subst same
  have unchanged {last : Fleet} (hookIds : last.hookIds = fleet.hookIds) :
      IndexWrites fleet.now (fun _ => True) (fleet.hookIds shard) (last.hookIds shard) := by
    rw [hookIds]
  cases op with
  | here call => cases call <;> exact unchanged rfl
  | run runId call => exact unchanged (callRun_tokens call runId).2.1
  | tokens call => exact unchanged (callTokens_cells call).2.1
  | hookIds call => exact callHookIds_scheduled needs.2 scheduled shard

theorem Fleet.exec_now (run : fleet.exec W route op choice = some (answer, after)) :
    fleet.now ≤ after.now := by
  have same := congrArg Prod.snd (Option.some.inj run)
  subst same
  cases op with
  | here call =>
    cases call with
    | elapse ms => exact Nat.le_add_right _ _
    | _ => exact Nat.le_refl _
  | run runId call => exact (callRun_tokens call runId).2.2.ge
  | tokens call => exact (callTokens_cells call).2.2.ge
  | hookIds call => exact (callHookIds_cells call).2.2.ge

end Steps

/-- What holds of a fleet in every run. -/
structure Fleet.Kept (W : WorldContract) (fleet : Fleet) : Prop extends fleet.Origins W where
  tokenShards : ∀ shard, (fleet.tokens shard).Sound
  hookIdShards : ∀ shard, (fleet.hookIds shard).Scheduled

/-- What a party may know of a fleet from then on. -/
inductive HookFact
  | created (owner : HookTokenOwner) (token : String)
  | passed (time : Nat)
  | dueToken (shard : String) (passNow : Nat) (entry : (Nat × String) × ClaimDeadline)
  | dueHookId (shard : String) (passNow : Nat) (entry : (Nat × String) × ClaimDeadline)
  | stale (shard : String) (passNow : Nat) (key : Nat × String)

def HookFact.Holds (fleet : Fleet) : HookFact → Prop
  | .created owner token => fleet.Created owner token
  | .passed time => time ≤ fleet.now
  | .dueToken shard passNow entry => passNow ≤ fleet.now ∧ (fleet.tokens shard).toIndexStore.Due passNow entry
  | .dueHookId shard passNow entry => passNow ≤ fleet.now ∧ (fleet.hookIds shard).Due passNow entry
  | .stale shard passNow key => passNow ≤ fleet.now ∧ (fleet.tokens shard).Stale passNow key

section Kept
variable {W : WorldContract} {route : Routing} {fleet after : Fleet} {β : Type} {op : FleetOp β}
    {choice : String} {answer : β}

theorem Fleet.Kept.exec (kept : fleet.Kept W) (needs : op.Needs fleet)
    (run : fleet.exec W route op choice = some (answer, after)) : after.Kept W where
  toOrigins := kept.toOrigins.exec needs run
  tokenShards shard := (kept.tokenShards shard).writes (Fleet.exec_tokens kept.tokenShards needs run shard)
  hookIdShards shard := (kept.hookIdShards shard).writes (Fleet.exec_hookIds kept.hookIdShards needs run shard)

theorem HookFact.Holds.exec {fact : HookFact} (holds : fact.Holds fleet) (kept : fleet.Kept W)
    (needs : op.Needs fleet)
    (run : fleet.exec W route op choice = some (answer, after)) : fact.Holds after := by
  have tick := Fleet.exec_now run
  cases fact with
  | created => exact Fleet.Created.exec holds run
  | passed time => exact Nat.le_trans holds tick
  | dueToken shard passNow entry =>
    obtain ⟨passed, due⟩ := holds
    exact ⟨passed.trans tick, due.tokenWrites passed (Fleet.exec_tokens kept.tokenShards needs run shard)⟩
  | dueHookId shard passNow entry =>
    obtain ⟨passed, due⟩ := holds
    exact ⟨passed.trans tick, due.writes passed (Fleet.exec_hookIds kept.hookIdShards needs run shard)⟩
  | stale shard passNow key =>
    obtain ⟨passed, stale⟩ := holds
    exact ⟨passed.trans tick, stale.writes passed (Fleet.exec_tokens kept.tokenShards needs run shard)⟩

end Kept

/-- All parties keep the indexes sound, whatever they know of the fleet. -/
def hookProtocol (W : WorldContract) (route : Routing) : Protocol (hookFleet W route) where
  Fact := HookFact
  Right := Empty
  inv fleet _ := fleet.Kept W
  holds fleet fact := fact.Holds fleet
  needs fleet _ _ op := op.Needs fleet
  leaves _ _ mine := mine
  keeps kept apart needs _ run := ⟨kept.exec needs run, apart, fun _ holds => holds.exec kept needs run⟩
  drops kept _ := kept

/-- An operation that a party may perform whatever it knows. -/
def FleetOp.Free {β : Type} (op : FleetOp β) : Prop := ∀ fleet, op.Needs fleet

section Knowledge
variable {W : WorldContract} {route : Routing} {fleet later : Fleet} {α β : Type} {token : String} {hook : Hook}

theorem Fleet.Names.mono (names : fleet.Names token hook) (knows : (hookProtocol W route).Knows fleet later) :
    later.Names token hook :=
  ⟨names.1, knows (.created (hookOwner hook) token) names.2⟩

theorem Fleet.NamesId.mono (names : fleet.NamesId hook) (knows : (hookProtocol W route).Knows fleet later) :
    later.NamesId hook :=
  knows (.created (hookOwner hook) hook.token) names

theorem Fleet.Names.id (names : fleet.Names token hook) : fleet.NamesId hook := by
  unfold NamesId
  exact names.1 ▸ names.2

theorem names_lasting : (hookProtocol W route).Lasting fun (answer : Option Hook) fleet =>
    ∀ hook ∈ answer, fleet.Names token hook :=
  fun _ _ _ knows names hook carried => (names hook carried).mono knows

theorem owners_lasting : (hookProtocol W route).Lasting fun (answer : Option HookTokenOwner) fleet =>
    ∀ owner ∈ answer, fleet.Created owner token :=
  fun _ _ _ knows created owner carried => knows (.created owner token) (created owner carried)

theorem any_lasting : (hookProtocol W route).Lasting fun (_ : α) _ => True := fun _ _ _ _ _ => trivial

theorem returns_free {program : FleetProg α} (only : program.Only FleetOp.Free) :
    (hookProtocol W route).Returns program fleet fun _ _ => True :=
  .of_only (only.imp fun free fleet _ => free fleet)

theorem callRun_free {runId : String} {call : RunCall β} (free : (FleetOp.run runId call).Free) :
    (callRun runId call).Only FleetOp.Free :=
  .remote (.perform free)

theorem callRunChecked_free {runId : String} {call : RunCall (Except Thrown β)}
    (free : (FleetOp.run runId call).Free) : (callRunChecked runId call).Only FleetOp.Free :=
  .remote (.bind (.perform free) fun _ => .ofExcept)

/-- What a run cell answers, where the answer lasts. -/
theorem callRunChecked_returns {runId : String} {call : RunCall (Except Thrown β)} {post : β → Fleet → Prop}
    (lasting : (hookProtocol W route).Lasting post)
    (meets : ∀ later, (hookProtocol W route).Knows fleet later → later.Kept W → call.Needs later ∧
      ∀ answer, call.answer W runId later.now (later.cells runId).store = .ok answer →
        post answer (later.callRun W runId call).2) :
    (hookProtocol W route).Returns (callRunChecked runId call) fleet post := by
  refine .remote (.through (fun (answered : Except Thrown β) later => ∀ answer,
    answered = .ok answer → post answer later)
    (.perform fun later mine others knows origins _ => ?_) fun answered later _ held => ?_) lasting
  · obtain ⟨needs, holds⟩ := meets later knows origins
    refine ⟨needs, fun choice answered after run _ last more answer same => ?_⟩
    obtain ⟨rfl, rfl⟩ := Prod.mk.inj (Option.some.inj run)
    exact lasting answer _ last more (holds answer same)
  · exact .ofExcept fun answer same last more => lasting answer later last more (held answer same)

end Knowledge

end CelldWorld
