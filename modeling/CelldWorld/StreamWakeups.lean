import CelldWorld.StreamInstances
import CelldWorld.StreamSessions
import Mathlib.Order.Basic
import Mathlib.Data.Nat.Basic

namespace CelldWorld

open StreamDO

namespace StreamDO
variable {runId : String} {op : StreamOp} {store after : StreamStore}

theorem loadMeta_storedMeta {metadata : StreamMeta} (load : loadMeta store = .ok metadata) :
    metadata = storedMeta store := by
  unfold storedMeta
  rcases loadMeta_ok load with ⟨absent, rfl⟩ | stored
  · rw [absent]
    rfl
  · rw [stored]
    rfl

/-- What the transaction of a mutation returns is the metadata that it leaves stored. -/
theorem nextMeta_stored (call : op.run runId store = .ok after) :
    nextMeta runId op store = .ok (storedMeta after) := by
  cases op with
  | write newLayout chunks =>
    obtain ⟨⟨result, written⟩, write, rfl⟩ := map_ok.mp call
    obtain ⟨_, metadata, next, -, load, -, rfl, -, -, rfl⟩ := writeChunks_ok write
    simp only [nextMeta, load, storedMeta, putRows_metadata]
    rfl
  | close | fail =>
    obtain ⟨metadata, load, -, ⟨opened, rfl⟩ | ⟨ended, rfl⟩⟩ := endStream_ok call
    · simp only [nextMeta, load, bind, Except.bind, opened]
      rfl
    · have unopened : (storedMeta after).state ≠ .opened := by
        rw [← loadMeta_storedMeta load]
        rcases ended with same | same <;> simp [same]
      simp only [nextMeta, load, bind, Except.bind, loadMeta_storedMeta load]
      exact if_pos unopened
  | expire expiredAt limit byteLimit =>
    obtain ⟨⟨result, paged⟩, expire, rfl⟩ := map_ok.mp call
    unfold expireStream at expire
    obtain ⟨metadata, load, expire⟩ := bind_ok.mp expire
    obtain ⟨_, -, expire⟩ := bind_ok.mp expire
    obtain ⟨⟨⟨chunks, bytes, done⟩, rows⟩, page, expire⟩ := bind_ok.mp expire
    have kept := (expirePage_ok (boundedLimit_pos (by decide)) page).metadata_eq
    simp only [nextMeta, load, bind, Except.bind, page]
    simp only at expire
    split at expire
    · rename_i again
      cases expire
      rw [if_pos again, loadMeta_storedMeta load]
      simp only [storedMeta, kept]
    · rename_i more
      cases expire
      rw [if_neg more]
      rfl

end StreamDO

/-- The metadata that was stored before any mutation and after each of those committed. -/
def StreamInstance.history (initial : StreamStore) (inst : StreamInstance) : List StreamMeta :=
  storedMeta initial :: inst.committed

/-- The metadata is what was stored at some moment after `number` mutations. -/
def StreamInstance.Since (initial : StreamStore) (number : Nat) (metadata : StreamMeta)
    (inst : StreamInstance) : Prop :=
  ∃ index, number ≤ index ∧ (inst.history initial)[index]? = some metadata

namespace StreamPoll

/-- The call is about to take a snapshot of what is stored after `number` mutations. -/
def Before (call : StreamPoll) (number : Nat) : Option WaitReason → Prop
  | none => call.snapshots = [] ∧ call.wait = none ∧ number = call.observedVersion
  | some reason => call.snapshots.length = 1 ∧ call.wait = some (reason, number)

/-- The call has taken a snapshot with this metadata. -/
def Taken (call : StreamPoll) (metadata : StreamMeta) : Option WaitReason → Prop
  | none => call.snapshots = [metadata] ∧ call.wait = none
  | some reason => ∃ first number, call.snapshots = [first, metadata] ∧ call.wait = some (reason, number)

/-- What is known of the call in the state that it is in. -/
def At (initial : StreamStore) (inst : StreamInstance) (call : StreamPoll) : PollState → Prop
  | .loading load again => ∃ number, call.Before number again ∧ load < inst.loads.length ∧
      ∀ metadata, inst.loads[load]? = some (.resolved metadata) → inst.Since initial number metadata
  | .loaded metadata again | .rows metadata _ again => call.Taken metadata again
  | .snapshot result again => ∃ metadata chunks, call.Taken metadata again ∧
      result = call.request.answer metadata again chunks
  | .waiting => call.snapshots.length = 1 ∧ call.wait = none
  | .woken reason => ∃ number, call.Before number (some reason)
  | .answered result => ∃ metadata again chunks, call.Taken metadata again ∧
      result = call.request.answer metadata again chunks
  | .failed _ => True

/-- What is known of the call in every state. -/
structure Known (initial : StreamStore) (inst : StreamInstance) (call : StreamPoll) : Prop where
  observed : call.observedVersion ≤ inst.committed.length
  reads : ∀ metadata ∈ call.snapshots, inst.Since initial call.observedVersion metadata
  ended : ∀ reason number, call.wait = some (reason, number) → call.observedVersion ≤ number ∧
    number ≤ inst.committed.length ∧ (call.observedVersion < number → reason = .change) ∧
    ∀ metadata, call.snapshots[1]? = some metadata → inst.Since initial number metadata
  unended : call.wait = none → call.snapshots.length ≤ 1

structure Tracked (initial : StreamStore) (inst : StreamInstance) (call : StreamPoll) : Prop
    extends Known initial inst call where
  phase : call.At initial inst call.state

end StreamPoll

namespace StreamInstance

/-- What stays known of an instance; the calls in `stale` are about to be woken. -/
structure Sound (initial : StreamStore) (stale : List Nat) (inst : StreamInstance) : Prop where
  version : inst.changeVersion = inst.committed.length
  stored : (inst.history initial)[inst.committed.length]? = some (storedMeta inst.store)
  cached : ∀ metadata, inst.metadata = some metadata → metadata = storedMeta inst.store
  filled : inst.committed ≠ [] → inst.metadata ≠ none
  promised : ∀ load, inst.metaLoad = some load → load < inst.loads.length
  unresolved : inst.metadata = none → ∀ (load : Nat) metadata,
    inst.loads[load]? ≠ some (MetaLoad.resolved metadata)
  waiters : ∀ poll, poll ∈ inst.waiters ↔ ∃ call, inst.polls poll = some call ∧ call.state = .waiting
  current : ∀ poll call, inst.polls poll = some call → call.state = .waiting → poll ∉ stale →
    call.observedVersion = inst.committed.length
  polls : ∀ poll call, inst.polls poll = some call → call.Tracked initial inst

/-- Mutations are only added, and a load is answered with what is stored then. -/
structure Grows (initial : StreamStore) (before after : StreamInstance) : Prop where
  committed : before.committed <+: after.committed
  loads : before.loads.length ≤ after.loads.length
  resolved : ∀ load metadata, load < before.loads.length →
    after.loads[load]? = some (MetaLoad.resolved metadata) →
    before.loads[load]? = some (MetaLoad.resolved metadata) ∨ after.Since initial before.committed.length metadata

/-- What a later state of an instance keeps of its calls. -/
structure Advances (before after : StreamInstance) : Prop where
  committed : before.committed.length ≤ after.committed.length
  opened : ∀ poll call, before.polls poll = none → after.polls poll = some call →
    before.committed.length ≤ call.observedVersion
  kept : ∀ poll call, before.polls poll = some call → ∃ later, after.polls poll = some later ∧
    later.observedVersion = call.observedVersion ∧ (∀ ended, call.wait = some ended → later.wait = some ended) ∧
    (call.wait = none → ∀ reason number, later.wait = some (reason, number) → before.committed.length ≤ number)

variable {initial : StreamStore} {stale : List Nat} {inst before middle after : StreamInstance} {poll : Nat}
  {call : StreamPoll} {number : Nat} {metadata : StreamMeta} {again : Option WaitReason}

theorem Since.mono {fewer : Nat} (since : inst.Since initial number metadata) (fewer_le : fewer ≤ number) :
    inst.Since initial fewer metadata := by
  obtain ⟨index, later, found⟩ := since
  exact ⟨index, fewer_le.trans later, found⟩

theorem history_prefix (more : before.committed <+: after.committed) {index : Nat}
    (found : (before.history initial)[index]? = some metadata) :
    (after.history initial)[index]? = some metadata := by
  obtain ⟨rest, same⟩ := more
  have longer : after.history initial = before.history initial ++ rest := by
    unfold history
    rw [← same, List.cons_append]
  rw [longer, List.getElem?_append_left (List.getElem?_eq_some_iff.mp found).1, found]

theorem Since.grows (since : before.Since initial number metadata) (more : before.committed <+: after.committed) :
    after.Since initial number metadata := by
  obtain ⟨index, later, found⟩ := since
  exact ⟨index, later, history_prefix more found⟩

theorem Grows.refl : inst.Grows initial inst := ⟨List.prefix_rfl, le_rfl, fun _ _ _ found => .inl found⟩

theorem Grows.of_eq (committed : before.committed = after.committed) (loads : before.loads = after.loads) :
    before.Grows initial after where
  committed := committed ▸ List.prefix_rfl
  loads := loads ▸ le_rfl
  resolved _ _ _ found := .inl (loads ▸ found)

namespace Advances

theorem refl : inst.Advances inst where
  committed := le_rfl
  opened poll call absent found := by
    rw [absent] at found
    cases found
  kept poll call found := ⟨call, found, rfl, fun _ same => same, fun none reason number some => by
    rw [none] at some
    cases some⟩

theorem trans (first : before.Advances middle) (second : middle.Advances after) : before.Advances after where
  committed := first.committed.trans second.committed
  opened poll call absent found := by
    cases between : middle.polls poll with
    | none => exact first.committed.trans (second.opened poll call between found)
    | some earlier =>
      obtain ⟨later, found', same, -⟩ := second.kept poll earlier between
      cases found.symm.trans found'
      rw [same]
      exact first.opened poll earlier absent between
  kept poll call found := by
    obtain ⟨between, found, same, kept, ended⟩ := first.kept poll call found
    obtain ⟨later, found, same', kept', ended'⟩ := second.kept poll between found
    refine ⟨later, found, same'.trans same, fun wait held => kept' wait (kept wait held), ?_⟩
    intro none reason number some
    cases earlier : between.wait with
    | none => exact first.committed.trans (ended' earlier reason number some)
    | some wait =>
      cases (kept' wait earlier).symm.trans some
      exact ended none reason number earlier

/-- Only the call that a part belongs to changes in it. -/
theorem setPoll {later : StreamPoll} {waiters : List Nat} {metaLoad : Option Nat} {loads : List MetaLoad}
    (found : inst.polls poll = some call) (same : later.observedVersion = call.observedVersion)
    (kept : ∀ ended, call.wait = some ended → later.wait = some ended)
    (ended : call.wait = none → ∀ reason number, later.wait = some (reason, number) →
      inst.committed.length ≤ number) :
    inst.Advances ({ inst with waiters, metaLoad, loads }.setPoll poll later) where
  committed := le_rfl
  opened other call' absent found' := by
    by_cases equal : other = poll
    · subst equal
      cases absent.symm.trans found
    · rw [setPoll_other equal] at found'
      cases absent.symm.trans found'
  kept other call' found' := by
    by_cases equal : other = poll
    · subst equal
      cases found.symm.trans found'
      exact ⟨later, Function.update_self .., same, kept, ended⟩
    · refine ⟨call', ?_, rfl, fun _ same => same, fun none reason number some => by
        rw [none] at some
        cases some⟩
      rw [setPoll_other equal]
      exact found'

end Advances

end StreamInstance

namespace StreamPoll
variable {initial : StreamStore} {before after : StreamInstance} {call : StreamPoll}

theorem At.grows {state : PollState} (at_ : call.At initial before state) (grows : before.Grows initial after)
    (bounded : ∀ number again, call.Before number again → number ≤ before.committed.length) :
    call.At initial after state := by
  cases state with
  | loading load again =>
    obtain ⟨number, ready, made, answered⟩ := at_
    refine ⟨number, ready, made.trans_le grows.loads, fun metadata found => ?_⟩
    rcases grows.resolved load metadata made found with old | new
    · exact (answered metadata old).grows grows.committed
    · exact new.mono (bounded number again ready)
  | loaded metadata again => exact at_
  | rows metadata read again => exact at_
  | snapshot result again => exact at_
  | waiting => exact at_
  | woken reason => exact at_
  | answered result => exact at_
  | failed error => trivial

variable {number : Nat} {again : Option WaitReason} {metadata : StreamMeta}

theorem Known.before_le (known : call.Known initial before) (ready : call.Before number again) :
    call.observedVersion ≤ number ∧ number ≤ before.committed.length := by
  cases again with
  | none => exact ⟨ready.2.2.ge, ready.2.2 ▸ known.observed⟩
  | some reason =>
    obtain ⟨lower, upper, -⟩ := known.ended reason number ready.2
    exact ⟨lower, upper⟩

theorem Known.grows (known : call.Known initial before) (grows : before.Grows initial after) :
    call.Known initial after where
  observed := known.observed.trans grows.committed.length_le
  reads metadata member := (known.reads metadata member).grows grows.committed
  ended reason number ended := by
    obtain ⟨lower, upper, change, reread⟩ := known.ended reason number ended
    exact ⟨lower, upper.trans grows.committed.length_le, change,
      fun metadata second => (reread metadata second).grows grows.committed⟩
  unended := known.unended

theorem Tracked.grows (tracked : call.Tracked initial before) (grows : before.Grows initial after) :
    call.Tracked initial after where
  toKnown := tracked.toKnown.grows grows
  phase := tracked.phase.grows grows fun _ _ ready => (tracked.before_le ready).2

theorem Tracked.of_eq (tracked : call.Tracked initial before) (committed : before.committed = after.committed)
    (loads : before.loads = after.loads) : call.Tracked initial after :=
  tracked.grows (.of_eq committed loads)

/-- The call takes its next snapshot. -/
theorem Known.take (known : call.Known initial before) (ready : call.Before number again)
    (since : before.Since initial number metadata) :
    Tracked initial before
      { call with state := .loaded metadata again, snapshots := call.snapshots ++ [metadata] } := by
  obtain ⟨lower, upper⟩ := known.before_le ready
  refine ⟨⟨known.observed, ?_, ?_, ?_⟩, ?_⟩
  · intro read member
    rcases List.mem_append.mp member with earlier | last
    · exact known.reads read earlier
    · cases List.mem_singleton.mp last
      exact since.mono lower
  · intro reason ended' ended
    obtain ⟨lower, upper, change, -⟩ := known.ended reason ended' ended
    refine ⟨lower, upper, change, fun read second => ?_⟩
    cases again with
    | none => cases ready.2.1.symm.trans ended
    | some other =>
      cases ready.2.symm.trans ended
      obtain ⟨first, same⟩ := List.length_eq_one_iff.mp ready.1
      simp only [same, List.cons_append, List.nil_append, List.getElem?_cons_succ, List.getElem?_cons_zero,
        Option.some.injEq] at second
      exact second ▸ since
  · intro unended
    cases again with
    | none => simp only [ready.1, List.nil_append, List.length_singleton, le_refl]
    | some other => cases ready.2.symm.trans unended
  · cases again with
    | none =>
      refine ⟨?_, ready.2.1⟩
      simp only [ready.1, List.nil_append]
    | some reason =>
      obtain ⟨first, same⟩ := List.length_eq_one_iff.mp ready.1
      refine ⟨first, number, ?_, ready.2⟩
      simp only [same, List.cons_append, List.nil_append]

/-- The call goes on in another state, with nothing else changed. -/
theorem Known.goes (known : call.Known initial before) {state : PollState} {aborted : Option Thrown}
    (phase : call.At initial before state) : Tracked initial before { call with state, aborted } :=
  ⟨⟨known.observed, known.reads, known.ended, known.unended⟩, by cases state <;> exact phase⟩

end StreamPoll

namespace StreamInstance
variable {initial : StreamStore} {stale : List Nat} {inst before after : StreamInstance} {poll : Nat}
  {call : StreamPoll} {number : Nat} {metadata : StreamMeta} {again : Option WaitReason} {reason : WaitReason}

/-- The instance with another load issued, which becomes the current one. -/
abbrev issued (inst : StreamInstance) : StreamInstance :=
  { inst with metaLoad := some inst.loads.length, loads := inst.loads ++ [MetaLoad.inFlight] }

theorem Grows.issued : inst.Grows initial inst.issued where
  committed := List.prefix_rfl
  loads := by simp
  resolved load metadata made found := .inl (by rwa [List.getElem?_append_left made] at found)

/-- The instance at the commit of a mutation, before it wakes the calls that wait. -/
abbrev committing (store : StreamStore) (metadata : StreamMeta) (inst : StreamInstance) : StreamInstance :=
  { inst with
    store, metadata := some metadata, metaLoad := some inst.loads.length
    loads := inst.loads ++ [MetaLoad.resolved metadata], mutations := inst.mutations.tail
    committed := inst.committed ++ [metadata], changeVersion := inst.changeVersion + 1 }

namespace Sound

/-- A call that does not wait goes on, and does not wait yet. -/
theorem setPoll (sound : inst.Sound initial stale) (tracked : call.Tracked initial inst)
    (idle : call.state ≠ .waiting)
    (was : ∀ old, inst.polls poll = some old → old.state ≠ .waiting) :
    (inst.setPoll poll call).Sound initial stale where
  version := sound.version
  stored := sound.stored
  cached := sound.cached
  filled := sound.filled
  promised := sound.promised
  unresolved := sound.unresolved
  waiters other := by
    refine (sound.waiters other).trans ?_
    by_cases equal : other = poll
    · subst equal
      refine ⟨fun ⟨old, found, waits⟩ => absurd waits (was old found), fun ⟨old, found, waits⟩ => ?_⟩
      cases setPoll_self.symm.trans found
      exact absurd waits idle
    · rw [setPoll_other equal]
  current other old found waits fresh := by
    by_cases equal : other = poll
    · subst equal
      cases setPoll_self.symm.trans found
      exact absurd waits idle
    · rw [setPoll_other equal] at found
      exact sound.current other old found waits fresh
  polls other old found := by
    by_cases equal : other = poll
    · subst equal
      cases setPoll_self.symm.trans found
      exact tracked.of_eq rfl rfl
    · rw [setPoll_other equal] at found
      exact (sound.polls other old found).of_eq rfl rfl

theorem issued (sound : inst.Sound initial stale) : inst.issued.Sound initial stale where
  version := sound.version
  stored := sound.stored
  cached := sound.cached
  filled := sound.filled
  promised load same := by
    cases same
    simp
  unresolved empty load metadata found := by
    rcases Nat.lt_or_ge load inst.loads.length with made | new
    · rw [List.getElem?_append_left made] at found
      exact sound.unresolved empty load metadata found
    · rw [List.getElem?_append_right new] at found
      cases List.mem_singleton.mp (List.mem_of_getElem? found)
  waiters := sound.waiters
  current := sound.current
  polls other old found := (sound.polls other old found).grows Grows.issued

theorem clear (sound : inst.Sound initial stale) : Sound initial stale { inst with metaLoad := none } where
  version := sound.version
  stored := sound.stored
  cached := sound.cached
  filled := sound.filled
  promised load same := by cases same
  unresolved := sound.unresolved
  waiters := sound.waiters
  current := sound.current
  polls other old found := (sound.polls other old found).grows (Grows.of_eq rfl rfl)

theorem since_stored (sound : inst.Sound initial stale) (le : number ≤ inst.committed.length) :
    inst.Since initial number (storedMeta inst.store) :=
  ⟨inst.committed.length, le, sound.stored⟩

theorem getMeta (sound : inst.Sound initial stale) (known : call.Known initial inst)
    (ready : call.Before number again)
    (was : ∀ old, inst.polls poll = some old → old.state ≠ .waiting) :
    (inst.getMeta poll call again).Sound initial stale := by
  obtain ⟨-, upper⟩ := known.before_le ready
  unfold StreamInstance.getMeta
  split
  · rename_i current cached
    have since := sound.since_stored upper
    rw [← sound.cached current cached] at since
    exact sound.setPoll (known.take ready since) nofun was
  · rename_i load empty promised
    have phase : call.At initial inst (.loading load again) := ⟨number, ready, sound.promised load promised,
      fun metadata found => absurd found (sound.unresolved empty load metadata)⟩
    exact sound.setPoll (known.goes phase) nofun was
  · rename_i empty promised
    have phase : call.At initial inst.issued (.loading inst.loads.length again) :=
      ⟨number, ready, by simp, fun metadata found => absurd found (sound.issued.unresolved empty _ metadata)⟩
    exact sound.issued.setPoll ((known.grows Grows.issued).goes phase) nofun was

/-- A call that does not wait needs no waking. -/
theorem awake (sound : inst.Sound initial stale) {rest : List Nat}
    (left : ∀ other ∈ stale, other = poll ∨ other ∈ rest)
    (idle : ∀ call, inst.polls poll = some call → call.state ≠ .waiting) : inst.Sound initial rest where
  version := sound.version
  stored := sound.stored
  cached := sound.cached
  filled := sound.filled
  promised := sound.promised
  unresolved := sound.unresolved
  waiters := sound.waiters
  current other call found waits fresh := by
    refine sound.current other call found waits fun member => ?_
    rcases left other member with rfl | later
    · exact idle call found waits
    · exact fresh later
  polls := sound.polls

/-- A wait ends with a change, or with a timeout when there was no change. -/
theorem woken (tracked : call.Tracked initial inst) (waits : call.state = .waiting)
    (fresh : reason = .timeout → call.observedVersion = inst.committed.length) :
    StreamPoll.Tracked initial inst
      { call with state := .woken reason, wait := some (reason, inst.committed.length) } := by
  have phase := tracked.phase
  rw [waits] at phase
  obtain ⟨taken, -⟩ := phase
  refine ⟨⟨tracked.observed, tracked.reads, ?_, nofun⟩, ⟨_, taken, rfl⟩⟩
  intro why number ended
  cases ended
  refine ⟨tracked.observed, le_rfl, fun earlier => ?_, fun metadata second => ?_⟩
  · cases reason with
    | change => rfl
    | timeout => exact absurd (fresh rfl) earlier.ne
  · rw [List.getElem?_eq_none (Nat.le_of_eq taken)] at second
    cases second

/-- A call leaves the waiters. -/
theorem unwait (sound : inst.Sound initial stale) {rest : List Nat}
    (left : ∀ other ∈ stale, other = poll ∨ other ∈ rest)
    (tracked : call.Tracked initial inst) (idle : call.state ≠ .waiting) :
    Sound initial rest ({ inst with waiters := inst.waiters.filter (· ≠ poll) }.setPoll poll call) where
  version := sound.version
  stored := sound.stored
  cached := sound.cached
  filled := sound.filled
  promised := sound.promised
  unresolved := sound.unresolved
  waiters other := by
    by_cases equal : other = poll
    · subst equal
      simp [StreamInstance.setPoll, idle]
    · rw [setPoll_other equal]
      simp [StreamInstance.setPoll, equal, sound.waiters other]
  current other old found waits fresh := by
    by_cases equal : other = poll
    · subst equal
      cases setPoll_self.symm.trans found
      exact absurd waits idle
    · rw [setPoll_other equal] at found
      exact sound.current other old found waits fun member => (left other member).elim equal fresh
  polls other old found := by
    by_cases equal : other = poll
    · subst equal
      cases setPoll_self.symm.trans found
      exact tracked.of_eq rfl rfl
    · rw [setPoll_other equal] at found
      exact (sound.polls other old found).of_eq rfl rfl

theorem finish (sound : inst.Sound initial stale) {rest : List Nat}
    (left : ∀ other ∈ stale, other = poll ∨ other ∈ rest)
    (fresh : reason = .timeout → poll ∉ stale) : (inst.finish reason poll).Sound initial rest := by
  unfold StreamInstance.finish
  split
  · rename_i absent
    exact sound.awake left fun call found => by cases absent.symm.trans found
  rename_i call found
  split
  · rename_i waits
    have observed : reason = .timeout → call.observedVersion = inst.committed.length :=
      fun timeout => sound.current poll call found waits (fresh timeout)
    exact sound.unwait left (woken (sound.polls poll call found) waits observed) nofun
  · rename_i idle
    exact sound.awake left fun other found' waits => by
      cases found.symm.trans found'
      exact idle waits

end Sound

/-- No call goes on. -/
theorem Advances.of_polls (committed : inst.committed.length ≤ after.committed.length)
    (polls : after.polls = inst.polls) : inst.Advances after where
  committed := committed
  opened poll call absent found := by
    rw [polls] at found
    cases absent.symm.trans found
  kept poll call found := ⟨call, polls ▸ found, rfl, fun _ same => same, fun none reason number some => by
    cases none.symm.trans some⟩

theorem Advances.finish (sound : inst.Sound initial stale) : inst.Advances (inst.finish reason poll) := by
  unfold StreamInstance.finish
  split
  · exact .refl
  rename_i call found
  split
  · rename_i waits
    have phase := (sound.polls poll call found).phase
    rw [waits] at phase
    refine .setPoll found rfl (fun ended held => ?_) (fun _ why number ended => ?_)
    · rw [phase.2] at held
      cases held
    · cases ended
      exact le_rfl
  · exact .refl

namespace Sound

/-- Every call that waits for a change that was committed is woken. -/
theorem foldl_finish {waiters : List Nat} (sound : inst.Sound initial waiters) :
    (waiters.foldl (StreamInstance.finish .change) inst).Sound initial [] ∧
      inst.Advances (waiters.foldl (StreamInstance.finish .change) inst) := by
  induction waiters generalizing inst with
  | nil => exact ⟨sound, .refl⟩
  | cons poll waiters ih =>
    have first : (inst.finish .change poll).Sound initial waiters :=
      sound.finish (fun other member => List.mem_cons.mp member) fun same => by cases same
    obtain ⟨woken, advances⟩ := ih first
    exact ⟨woken, (Advances.finish sound).trans advances⟩

/-- A call is among the waiters, and may have missed a change. -/
theorem install (sound : inst.Sound initial []) (found : inst.polls poll = some call)
    (taken : call.snapshots.length = 1 ∧ call.wait = none) :
    Sound initial [poll]
      ({ inst with waiters := inst.waiters ++ [poll] }.setPoll poll { call with state := .waiting }) where
  version := sound.version
  stored := sound.stored
  cached := sound.cached
  filled := sound.filled
  promised := sound.promised
  unresolved := sound.unresolved
  waiters other := by
    by_cases equal : other = poll
    · subst equal
      simp [StreamInstance.setPoll]
    · rw [setPoll_other equal]
      simp [StreamInstance.setPoll, equal, sound.waiters other]
  current other old found' waits fresh := by
    have equal : other ≠ poll := fun same => fresh (List.mem_singleton.mpr same)
    rw [setPoll_other equal] at found'
    exact sound.current other old found' waits (List.not_mem_nil)
  polls other old found' := by
    by_cases equal : other = poll
    · subst equal
      cases setPoll_self.symm.trans found'
      have tracked : StreamPoll.Tracked initial inst { call with state := .waiting } :=
        (sound.polls other call found).goes taken
      exact tracked.of_eq rfl rfl
    · rw [setPoll_other equal] at found'
      exact (sound.polls other old found').of_eq rfl rfl

/-- A call begins to wait, and is woken at once when it has missed a change. -/
theorem waitForChange (sound : inst.Sound initial []) (found : inst.polls poll = some call)
    (taken : call.snapshots.length = 1 ∧ call.wait = none) (idle : call.state ≠ .waiting) :
    (inst.waitForChange poll call).Sound initial [] ∧ inst.Advances (inst.waitForChange poll call) := by
  have tracked := sound.polls poll call found
  have was : ∀ old, inst.polls poll = some old → old.state ≠ .waiting := fun old found' => by
    cases found.symm.trans found'
    exact idle
  have unended : ∀ later : StreamPoll, later.wait = call.wait → call.wait = none →
      ∀ reason number, later.wait = some (reason, number) → inst.committed.length ≤ number :=
    fun later same none reason number some => by cases (same.trans none).symm.trans some
  have installed := sound.install found taken
  have waiting : inst.Advances
      ({ inst with waiters := inst.waiters ++ [poll] }.setPoll poll { call with state := .waiting }) :=
    .setPoll found rfl (fun _ same => same) (unended _ rfl)
  unfold StreamInstance.waitForChange
  split
  · exact ⟨sound.setPoll (tracked.goes trivial) nofun was,
      .setPoll found rfl (fun _ same => same) (unended _ rfl)⟩
  · simp only
    split
    · refine ⟨installed.finish (fun other member => .inl (List.mem_singleton.mp member))
        (fun same => by cases same), ?_⟩
      exact waiting.trans (Advances.finish installed)
    · rename_i unchanged
      refine ⟨?_, waiting⟩
      exact
        { installed with
          current := fun other old found' waits fresh => by
            by_cases equal : other = poll
            · subst equal
              cases setPoll_self.symm.trans found'
              exact (Decidable.not_not.mp unchanged).symm.trans sound.version
            · exact installed.current other old found' waits fun member => equal (List.mem_singleton.mp member) }

/-- A load is answered with what is stored. -/
theorem loadCompletes (sound : inst.Sound initial []) {load : Nat} {answer : Except Thrown StreamMeta}
    (read : ∀ metadata, answer = .ok metadata → metadata = storedMeta inst.store) :
    (inst.loadCompletes load answer).Sound initial [] ∧ inst.Advances (inst.loadCompletes load answer) := by
  unfold StreamInstance.loadCompletes
  split
  · rename_i flying
    split
    · rename_i metadata
      cases read metadata rfl
      refine ⟨?_, .of_polls le_rfl rfl⟩
      exact
        { version := sound.version
          stored := sound.stored
          cached := fun metadata same => (Option.some.inj same).symm
          filled := nofun
          promised := fun load same => by
            rw [List.length_set]
            exact sound.promised load same
          unresolved := nofun
          waiters := sound.waiters
          current := sound.current
          polls := fun other old found => (sound.polls other old found).grows
            { committed := List.prefix_rfl
              loads := (List.length_set ..).ge
              resolved := fun other metadata made found => by
                by_cases equal : load = other
                · subst equal
                  rw [List.getElem?_set_self made] at found
                  cases found
                  exact .inr (sound.since_stored le_rfl)
                · rw [List.getElem?_set_ne equal] at found
                  exact .inl found } }
    · rename_i error
      have kept : ∀ (other : Nat) metadata, (inst.loads.set load (.rejected error))[other]? =
        some (.resolved metadata) →
          inst.loads[other]? = some (MetaLoad.resolved metadata) := by
        intro other metadata found
        by_cases equal : load = other
        · subst equal
          rw [List.getElem?_set_self (List.getElem?_eq_some_iff.mp flying).1] at found
          cases found
        · rwa [List.getElem?_set_ne equal] at found
      refine ⟨?_, .of_polls le_rfl rfl⟩
      exact
        { version := sound.version
          stored := sound.stored
          cached := sound.cached
          filled := sound.filled
          promised := fun load same => by
            rw [List.length_set]
            exact sound.promised load same
          unresolved := fun empty other metadata found =>
            sound.unresolved empty other metadata (kept other metadata found)
          waiters := sound.waiters
          current := sound.current
          polls := fun other old found => (sound.polls other old found).grows
            { committed := List.prefix_rfl
              loads := (List.length_set ..).ge
              resolved := fun other metadata _ found => .inl (kept other metadata found) } }
  · exact ⟨sound, .refl⟩

/-- A mutation that commits makes every waiting call stale, and wakes it. -/
theorem transactionCommits (sound : inst.Sound initial []) {store : StreamStore} {metadata : StreamMeta}
    (put : metadata = storedMeta store) :
    (inst.transactionCommits store metadata).Sound initial [] ∧
      (inst.committing store metadata).Advances (inst.transactionCommits store metadata) := by
  have grows : inst.Grows initial (inst.committing store metadata) :=
    { committed := List.prefix_append ..
      loads := by simp
      resolved := fun load metadata made found => .inl (by rwa [List.getElem?_append_left made] at found) }
  have committed : (inst.committing store metadata).Sound initial inst.waiters :=
    { version := by simp [sound.version]
      stored := by simp [history, put]
      cached := fun other same => (Option.some.inj same).symm.trans put
      filled := nofun
      promised := fun load same => by
        cases same
        simp
      unresolved := nofun
      waiters := sound.waiters
      current := fun poll call found waits fresh => absurd ((sound.waiters poll).mpr ⟨call, found, waits⟩) fresh
      polls := fun poll call found => (sound.polls poll call found).grows grows }
  exact committed.foldl_finish

end Sound

end StreamInstance

namespace StreamPoll
variable {initial : StreamStore} {inst : StreamInstance} {call : StreamPoll} {metadata : StreamMeta}
  {again : Option WaitReason}

theorem Taken.afterRows (taken : call.Taken metadata again) {read : RowRead} :
    call.At initial inst (call.request.afterRows metadata again read) := by
  cases read with
  | answer chunks =>
    cases chunks with
    | ok chunks => exact ⟨metadata, chunks, taken, rfl⟩
    | error error => trivial
  | await next => exact taken

theorem Taken.readSnapshot (taken : call.Taken metadata again) :
    call.At initial inst (call.request.readSnapshot metadata again) := by
  unfold StreamReadRequest.readSnapshot
  split
  · trivial
  generalize (if metadata.state = .expired then 0 else _) = available
  simp only
  split
  · exact taken.afterRows
  · exact ⟨metadata, [], taken, rfl⟩

theorem afterRows_idle {request : StreamReadRequest} {read : RowRead} :
    request.afterRows metadata again read ≠ .waiting := by
  unfold StreamReadRequest.afterRows
  split <;> exact nofun

theorem readSnapshot_idle {request : StreamReadRequest} : request.readSnapshot metadata again ≠ .waiting := by
  unfold StreamReadRequest.readSnapshot
  split
  · exact nofun
  generalize (if metadata.state = .expired then 0 else _) = available
  simp only
  split
  · exact afterRows_idle
  · exact nofun

end StreamPoll

namespace StreamInstance
variable {initial : StreamStore} {inst : StreamInstance} {poll : Nat} {call later : StreamPoll}
  {again : Option WaitReason}

/-- A call of `readChunks` begins. -/
theorem Advances.begin {metaLoad : Option Nat} {loads : List MetaLoad} (absent : inst.polls poll = none)
    (observed : inst.committed.length ≤ later.observedVersion) :
    inst.Advances ({ inst with metaLoad, loads }.setPoll poll later) where
  committed := le_rfl
  opened other call absent' found := by
    by_cases equal : other = poll
    · subst equal
      cases setPoll_self.symm.trans found
      exact observed
    · rw [setPoll_other equal] at found
      cases absent'.symm.trans found
  kept other call found := by
    have equal : other ≠ poll := fun same => by
      subst same
      cases absent.symm.trans found
    refine ⟨call, (setPoll_other equal).trans found, rfl, fun _ same => same, fun none reason number some => ?_⟩
    cases none.symm.trans some

/-- Whatever `getMeta` finds, the call goes on as the one it was. -/
theorem getMeta_eq (poll : Nat) (call : StreamPoll) (again : Option WaitReason) (inst : StreamInstance) :
    ∃ metaLoad loads later,
    inst.getMeta poll call again = { inst with metaLoad, loads }.setPoll poll later ∧
      later.observedVersion = call.observedVersion ∧ later.wait = call.wait := by
  unfold getMeta
  split
  · exact ⟨_, _, _, rfl, rfl, rfl⟩
  · exact ⟨_, _, _, rfl, rfl, rfl⟩
  · exact ⟨_, _, _, rfl, rfl, rfl⟩

/-- A call goes on with its wait as it was. -/
theorem Advances.goes {waiters : List Nat} {metaLoad : Option Nat} {loads : List MetaLoad}
    (found : inst.polls poll = some call) (observed : later.observedVersion = call.observedVersion)
    (wait : later.wait = call.wait) : inst.Advances ({ inst with waiters, metaLoad, loads }.setPoll poll later) :=
  .setPoll found observed (fun _ same => wait.trans same) fun none reason number some => by
    cases (wait.trans none).symm.trans some

namespace Sound

theorem readChunks (sound : inst.Sound initial []) {request : StreamReadRequest} :
    (inst.readChunks poll request).Sound initial [] ∧ inst.Advances (inst.readChunks poll request) := by
  unfold StreamInstance.readChunks
  split
  · exact ⟨sound, .refl⟩
  rename_i absent
  have known : ∀ state, StreamPoll.Known initial inst { request, observedVersion := inst.changeVersion, state } :=
    fun state => ⟨sound.version.le, nofun, nofun, fun _ => Nat.zero_le _⟩
  have was : ∀ old, inst.polls poll = some old → old.state ≠ .waiting := fun old found => by
    cases absent.symm.trans found
  split
  · rename_i error _
    exact ⟨sound.setPoll ((known (.failed error)).goes trivial) nofun was, .begin absent sound.version.ge⟩
  · refine ⟨sound.getMeta (known .waiting) ⟨rfl, rfl, rfl⟩ was, ?_⟩
    obtain ⟨metaLoad, loads, later, same, observed, -⟩ :=
      getMeta_eq poll { request, observedVersion := inst.changeVersion, state := .waiting } none inst
    rw [same]
    exact .begin absent (sound.version.ge.trans observed.ge)

/-- A part of a call ends with the call in another state. -/
theorem goes (sound : inst.Sound initial []) (found : inst.polls poll = some call) (was : call.state ≠ .waiting)
    {state : PollState} (phase : call.At initial inst state) (idle : state ≠ .waiting) :
    (inst.setPoll poll { call with state }).Sound initial [] ∧
      inst.Advances (inst.setPoll poll { call with state }) := by
  refine ⟨sound.setPoll ((sound.polls poll call found).goes phase) idle fun old found' => ?_, .goes found rfl rfl⟩
  cases found.symm.trans found'
  exact was

/-- Each part of a call keeps what is known. -/
theorem resume (sound : inst.Sound initial []) (found : inst.polls poll = some call) {event : StreamEvent} :
    (inst.resume poll call event).Sound initial [] ∧ inst.Advances (inst.resume poll call event) := by
  have tracked := sound.polls poll call found
  have phase := tracked.phase
  have was : call.state ≠ .waiting → ∀ old, inst.polls poll = some old → old.state ≠ .waiting :=
    fun idle old found' => by
      cases found.symm.trans found'
      exact idle
  unfold StreamInstance.resume
  split
  · split
    · rename_i load again at_
      rw [at_] at phase
      obtain ⟨number, ready, -, answered⟩ := phase
      have idle : call.state ≠ .waiting := by rw [at_]; exact nofun
      split
      · rename_i metadata resolved
        exact ⟨sound.setPoll (tracked.take ready (answered metadata resolved)) nofun (was idle),
          .goes found rfl rfl⟩
      · exact ⟨sound.clear.setPoll ((sound.clear.polls poll call found).goes trivial) nofun (was idle),
          .goes found rfl rfl⟩
      · exact ⟨sound, .refl⟩
    · exact ⟨sound, .refl⟩
  · split
    · rename_i metadata again at_
      rw [at_] at phase
      exact sound.goes found (by rw [at_]; exact nofun) (StreamPoll.Taken.readSnapshot phase)
        StreamPoll.readSnapshot_idle
    · exact ⟨sound, .refl⟩
  · split
    · rename_i metadata next again at_
      rw [at_] at phase
      exact sound.goes found (by rw [at_]; exact nofun) (StreamPoll.Taken.afterRows phase)
        StreamPoll.afterRows_idle
    · exact ⟨sound, .refl⟩
  · split
    · rename_i at_
      exact sound.goes found (by rw [at_]; exact nofun) trivial nofun
    · exact ⟨sound, .refl⟩
  · split
    · rename_i result at_
      rw [at_] at phase
      obtain ⟨metadata, chunks, taken, same⟩ := phase
      have idle : call.state ≠ .waiting := by rw [at_]; exact nofun
      split
      · exact sound.goes found idle ⟨metadata, none, chunks, taken, same⟩ nofun
      · exact sound.waitForChange found ⟨by rw [taken.1]; rfl, taken.2⟩ idle
    · rename_i result reason at_
      rw [at_] at phase
      obtain ⟨metadata, chunks, taken, same⟩ := phase
      exact sound.goes found (by rw [at_]; exact nofun) ⟨metadata, some reason, chunks, taken, same⟩ nofun
    · exact ⟨sound, .refl⟩
  · split
    · rename_i reason at_
      rw [at_] at phase
      obtain ⟨number, ready⟩ := phase
      have idle : call.state ≠ .waiting := by rw [at_]; exact nofun
      refine ⟨sound.getMeta tracked.toKnown ready (was idle), ?_⟩
      obtain ⟨metaLoad, loads, later, same, observed, wait⟩ := getMeta_eq poll call (some reason) inst
      rw [same]
      exact .goes found observed wait
    · exact ⟨sound, .refl⟩
  · split
    · exact ⟨sound.unwait nofun (tracked.goes trivial) nofun, .goes found rfl rfl⟩
    · rename_i idle
      exact ⟨sound.setPoll (tracked.goes phase) (fun same => idle same) (was fun same => idle same),
        .goes found rfl rfl⟩
  · exact ⟨sound, .refl⟩

theorem start : (StreamInstance.start initial).Sound initial [] where
  version := rfl
  stored := rfl
  cached := nofun
  filled := nofun
  promised := nofun
  unresolved _ load metadata found := by cases found
  waiters poll := by
    refine ⟨nofun, fun ⟨call, found, _⟩ => ?_⟩
    cases found
  current poll call found := by cases found
  polls poll call found := by cases found

/-- A transaction that completes commits the mutation that runs, or fails it. -/
theorem transactionCompletes (sound : inst.Sound initial []) :
    (inst.transactionCompletes.Sound initial [] ∧ inst.transactionCompletes.committed = inst.committed ∧
      inst.transactionCompletes.polls = inst.polls) ∨
    ∃ store metadata, inst.transactionCompletes = inst.transactionCommits store metadata ∧
      metadata = storedMeta store := by
  unfold StreamInstance.transactionCompletes
  split
  · exact .inl ⟨sound, rfl, rfl⟩
  split
  · rename_i store metadata ran returned
    refine .inr ⟨store, metadata, rfl, ?_⟩
    exact Except.ok.inj (returned.symm.trans (nextMeta_stored ran))
  · exact .inl ⟨{ sound with polls := fun poll call found => (sound.polls poll call found).of_eq rfl rfl },
      rfl, rfl⟩

theorem committing_advances {store : StreamStore} {metadata : StreamMeta} :
    inst.Advances (inst.committing store metadata) :=
  .of_polls (by simp) rfl

/-- An event that only goes on with a poll. -/
theorem resumed (sound : inst.Sound initial []) (poll : Nat) (event : StreamEvent) :
    (match inst.polls poll with
      | none => inst
      | some call => inst.resume poll call event).Sound initial [] ∧ inst.Advances (match inst.polls poll with
      | none => inst
      | some call => inst.resume poll call event) := by
  split
  · exact ⟨sound, .refl⟩
  · rename_i call found
    exact sound.resume found

/-- Whatever happens next in an instance keeps what is known of it. -/
theorem next (sound : inst.Sound initial []) (event : StreamEvent) :
    (inst.next event).Sound initial [] ∧ inst.Advances (inst.next event) := by
  cases event with
  | readChunks poll request => exact sound.readChunks
  | loadCompletes load => exact sound.loadCompletes fun metadata read => loadMeta_storedMeta read
  | loadFails load error =>
    exact sound.loadCompletes fun metadata (read : Except.error error = .ok metadata) => by cases read
  | timeout poll => exact ⟨sound.finish nofun fun _ => List.not_mem_nil, .finish sound⟩
  | runMutation runId op =>
    unfold StreamInstance.next
    dsimp only
    split
    · exact ⟨{ sound with polls := fun poll call found => (sound.polls poll call found).of_eq rfl rfl },
        .of_polls le_rfl rfl⟩
    · exact ⟨sound, .refl⟩
  | transactionCompletes =>
    rcases sound.transactionCompletes with ⟨sound', same, polls⟩ | ⟨store, metadata, same, put⟩
    · exact ⟨sound', .of_polls (congrArg List.length same).ge polls⟩
    · obtain ⟨committed, advances⟩ := sound.transactionCommits put
      change inst.transactionCompletes.Sound initial [] ∧ inst.Advances inst.transactionCompletes
      rw [same]
      exact ⟨committed, committing_advances.trans advances⟩
  | transactionFails =>
    exact ⟨{ sound with polls := fun poll call found => (sound.polls poll call found).of_eq rfl rfl },
      .of_polls le_rfl rfl⟩
  | loadAnswered poll => exact sound.resumed poll _
  | metaAnswered poll => exact sound.resumed poll _
  | rowsComplete poll => exact sound.resumed poll _
  | rowsFail poll error => exact sound.resumed poll _
  | snapshotAnswered poll => exact sound.resumed poll _
  | waitAnswered poll => exact sound.resumed poll _
  | abort poll reason => exact sound.resumed poll _

theorem run (sound : inst.Sound initial []) {events : List StreamEvent} :
    (inst.run events).Sound initial [] ∧ inst.Advances (inst.run events) := by
  induction events generalizing inst with
  | nil => exact ⟨sound, .refl⟩
  | cons event events ih =>
    obtain ⟨sound', advances⟩ := sound.next event
    obtain ⟨last, later⟩ := ih sound'
    exact ⟨last, advances.trans later⟩

end Sound

end StreamInstance

namespace StreamInstance
variable {initial : StreamStore} {earlier later : StreamInstance} {poll : Nat} {call ended : StreamPoll}
  {result : StreamReadResult} {metadata : StreamMeta}

/-- A call that begins later reads what is stored by then. -/
theorem Advances.reads (advances : earlier.Advances later) (sound : later.Sound initial [])
    (absent : earlier.polls poll = none) (found : later.polls poll = some call)
    (member : metadata ∈ call.snapshots) :
    later.Since initial earlier.committed.length metadata :=
  ((sound.polls poll call found).reads metadata member).mono (advances.opened poll call absent found)

/-- An answer is that of the last snapshot. -/
theorem Sound.answered (sound : later.Sound initial []) (found : later.polls poll = some call)
    (answered : call.state = .answered result) :
    ∃ metadata, call.snapshots.getLast? = some metadata ∧ result.tailIndex = (metadata.count : Int) - 1 ∧
      result.state = metadata.state ∧ result.error = metadata.error := by
  have phase := (sound.polls poll call found).phase
  rw [answered] at phase
  obtain ⟨metadata, again, chunks, taken, rfl⟩ := phase
  refine ⟨metadata, ?_, rfl, rfl, rfl⟩
  cases again with
  | none =>
    rw [taken.1]
    rfl
  | some reason =>
    obtain ⟨first, number, same, -⟩ := taken
    rw [same]
    rfl

end StreamInstance

end CelldWorld
