import CelldWorld.StreamStore

namespace CelldWorld

structure RegistryExpiry where
  expiredAt : Nat
  deleted : Nat
  deriving DecidableEq, Repr

/-- The storage of the stream registry of one run. -/
structure StreamRegistry where
  /-- `registry:owner` -/
  owner : Option String := none
  /-- `registry:expired` -/
  expired : Option RegistryExpiry := none
  /-- `stream:` -/
  streams : KeyMap Bool := ∅

structure FinalizeRunStreamsResult where
  deleted : Nat
  done : Bool
  deriving DecidableEq, Repr

/-- A map after the keys of a list were erased one by one. -/
theorem foldl_erase_contains {κ ν : Type} {cmp : κ → κ → Ordering} [Std.TransCmp cmp] [Std.LawfulEqCmp cmp]
    [DecidableEq κ] (keys : List κ) {map : Std.ExtTreeMap κ ν cmp} {key : κ} :
    (keys.foldl (fun remaining key => remaining.erase key) map).contains key =
      (map.contains key && key ∉ keys) := by
  induction keys generalizing map with
  | nil => simp
  | cons first keys ih =>
    rw [List.foldl_cons, ih, Std.ExtTreeMap.contains_erase]
    by_cases same : first = key
    · simp [same]
    · have kept : (cmp first key != .eq) = true := by simpa using same
      have other : key ≠ first := fun equal => same equal.symm
      simp [kept, other]

namespace StreamDO

/-- Register a stream name with the registry of its run. -/
def registerStream (runId name : String) (registry : StreamRegistry) : Except Thrown StreamRegistry :=
  if registry.expired.isSome then .error (.error s!"Workflow run \"{runId}\" has expired")
  else match registry.owner.filter (· ≠ runId) with
    | some owner => .error (.error s!"Stream registry is owned by workflow run \"{owner}\"")
    | none => .ok { registry with owner := some runId, streams := registry.streams.insert name true }

/-- Fence the registry of a run before any of its stream cells is removed. -/
def expireRegistry (runId : String) (expiredAt : Nat) (limit : Option Nat) (registry : StreamRegistry) :
    Except Thrown (List String × StreamRegistry) :=
  match registry.owner.filter (· ≠ runId) with
  | some owner => .error (.error s!"Stream registry is owned by workflow run \"{owner}\"")
  | none => .ok (registry.streams.keys.take (boundedLimit limit 16 128),
      { registry with owner := some runId, expired := some (registry.expired.getD ⟨expiredAt, 0⟩) })

/-- Remove completed registry entries and count those that were there. -/
def finalizeRegistry (runId : String) (streams : List String) (registry : StreamRegistry) :
    Except Thrown (FinalizeRunStreamsResult × StreamRegistry) :=
  match registry.expired with
  | some expiry =>
    if registry.owner ≠ some runId then
      .error (.error s!"Stream registry for workflow run \"{runId}\" is not expired")
    else
      let names := streams.eraseDups
      let deleted := expiry.deleted + names.countP (registry.streams.contains ·)
      let remaining := names.foldl (fun remaining name => remaining.erase name) registry.streams
      .ok (⟨deleted, remaining.isEmpty⟩,
        { registry with expired := some { expiry with deleted }, streams := remaining })
  | none => .error (.error s!"Stream registry for workflow run \"{runId}\" is not expired")

variable {runId name : String} {registry after : StreamRegistry}

theorem registerStream_ok (call : registerStream runId name registry = .ok after) :
    registry.expired = none ∧ after.expired = none ∧ after.streams = registry.streams.insert name true := by
  unfold registerStream at call
  split at call
  · cases call
  rename_i unfenced
  have unfenced : registry.expired = none := by simpa using unfenced
  split at call
  · cases call
  · cases call
    exact ⟨unfenced, unfenced, rfl⟩

/-- Fencing keeps the names and the count. -/
theorem expireRegistry_ok {expiredAt : Nat} {limit : Option Nat} {names : List String}
    (call : expireRegistry runId expiredAt limit registry = .ok (names, after)) :
    after.streams = registry.streams ∧
      ∃ fence, after.expired = some fence ∧ registry.expired.getD ⟨expiredAt, 0⟩ = fence := by
  unfold expireRegistry at call
  split at call
  · cases call
  · cases call
    exact ⟨rfl, _, rfl, rfl⟩

/-- What a registry loses in a batch: the names of the batch that it had. -/
theorem finalizeRegistry_ok {streams : List String} {result : FinalizeRunStreamsResult}
    (call : finalizeRegistry runId streams registry = .ok (result, after)) :
    ∃ fence, registry.expired = some fence ∧ after.expired = some { fence with deleted := result.deleted } ∧
      result.deleted = fence.deleted + streams.eraseDups.countP (registry.streams.contains ·) ∧
      result.done = after.streams.isEmpty ∧
      ∀ name, after.streams.contains name = (registry.streams.contains name && name ∉ streams) := by
  unfold finalizeRegistry at call
  split at call
  · rename_i fence fenced
    split at call
    · cases call
    · cases call
      refine ⟨fence, fenced, rfl, rfl, rfl, fun name => ?_⟩
      rw [foldl_erase_contains]
      simp
  · cases call

end StreamDO

end CelldWorld
