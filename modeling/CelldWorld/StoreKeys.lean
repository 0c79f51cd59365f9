import CelldWorld.Retention

namespace CelldWorld

namespace RunStore
variable {store : RunStore}

/-- Does the cell store a value under this key? -/
def has (store : RunStore) : StoreKey → Bool
  | .attrEvent id => store.attrEvent.contains id
  | .event id => store.events.contains id
  | .eventSequence => store.eventSequence ≠ 0
  | .hook id => store.hooks.contains id
  | .hookClaimCancelled id => store.hookClaimCancelled.contains id
  | .hookCreated key => store.hookCreated.contains key
  | .hookEvent id => store.hookEvent.contains id
  | .hookForced id => store.hookForced.contains id
  | .hookReleased id => store.hookReleased.contains id
  | .hookResume id => store.hookResume.contains id
  | .queueClaimScope => store.queueClaimScope.isSome
  | .queueClaim id => store.queueClaims.contains id
  | .queuePayload id => store.queuePayloads.contains id
  | .cleanup => store.cleanup.isSome
  | .hookMarker key => store.hookMarkers.contains key
  | .tombstone => store.tombstone.isSome
  | .run => store.run.isSome
  | .step id => store.steps.contains id
  | .stepCreated key => store.stepCreated.contains key
  | .terminalCleanup => store.terminalCleanup.isSome
  | .wait id => store.waits.contains id

theorem mem_single {α : Type} {value : Option α} {key other : StoreKey} :
    key ∈ (if value.isSome then [other] else []) ↔ value.isSome ∧ key = other := by
  cases value <;> simp

theorem mem_keys {key : StoreKey} : key ∈ store.keys ↔ store.has key = true := by
  unfold keys
  simp only [List.mem_append, mem_single, List.mem_map]
  cases key <;> simp [has]

/-- Keys of the first `n` prefixes, each at most once. -/
def Families (n : Nat) (keys : List StoreKey) : Prop :=
  keys.Nodup ∧ ∀ key ∈ keys, key.ctorIdx < n

theorem Families.append {n : Nat} {keys family : List StoreKey} (families : Families n keys)
    (nodup : family.Nodup)
    (same : ∀ key ∈ family, key.ctorIdx = n) : Families (n + 1) (keys ++ family) := by
  refine ⟨List.nodup_append.mpr ⟨families.1, nodup, fun key first other last equal => ?_⟩, fun key member => ?_⟩
  · have below := families.2 key first
    rw [equal, same other last] at below
    exact Nat.lt_irrefl n below
  · rcases List.mem_append.mp member with first | last
    · exact Nat.lt_succ_of_lt (families.2 key first)
    · exact Nat.lt_succ_of_le (Nat.le_of_eq (same key last))

theorem Families.mapped {n : Nat} {keys : List StoreKey} {κ ν : Type} {cmp : κ → κ → Ordering} [Std.TransCmp cmp]
    [Std.LawfulEqCmp cmp] (families : Families n keys) (map : Std.ExtTreeMap κ ν cmp) (wrap : κ → StoreKey)
    (injective : ∀ a b, wrap a = wrap b → a = b) (family : ∀ k, (wrap k).ctorIdx = n) :
    Families (n + 1) (keys ++ map.keys.map wrap) := by
  refine families.append ?_ fun key member => ?_
  · exact List.Pairwise.map _ (fun a b different equal => different (injective a b equal))
      Std.ExtTreeMap.nodup_keys
  · obtain ⟨k, -, rfl⟩ := List.mem_map.mp member
    exact family k

theorem Families.single {n : Nat} {keys : List StoreKey} {α : Type} (families : Families n keys)
    (value : Option α)
    (key : StoreKey) (family : key.ctorIdx = n) :
    Families (n + 1) (keys ++ if value.isSome then [key] else []) := by
  refine families.append ?_ fun other member => ?_
  · cases value <;> simp
  · rw [(mem_single.mp member).2, family]

theorem Families.sequence {n : Nat} {keys : List StoreKey} (families : Families n keys) (size : Nat)
    (key : StoreKey) (family : key.ctorIdx = n) : Families (n + 1) (keys ++ if size = 0 then [] else [key]) := by
  refine families.append ?_ fun other member => ?_
  · split <;> simp
  · split at member
    · cases member
    · rw [List.mem_singleton.mp member, family]

theorem keys_nodup (store : RunStore) : store.keys.Nodup := by
  have start : Families 0 [] := ⟨.nil, nofun⟩
  have events := ((start.mapped store.attrEvent .attrEvent (by simp) fun _ => rfl).mapped
    store.events .event (by simp) fun _ => rfl).sequence store.eventSequence .eventSequence rfl
  have hooks := ((events.mapped store.hooks .hook (by simp) fun _ => rfl).mapped
    store.hookClaimCancelled .hookClaimCancelled (by simp) fun _ => rfl).mapped
    store.hookCreated .hookCreated (by simp) fun _ => rfl
  have records := (((hooks.mapped store.hookEvent .hookEvent (by simp) fun _ => rfl).mapped
    store.hookForced .hookForced (by simp) fun _ => rfl).mapped
    store.hookReleased .hookReleased (by simp) fun _ => rfl).mapped
    store.hookResume .hookResume (by simp) fun _ => rfl
  have queues := ((records.single store.queueClaimScope .queueClaimScope rfl).mapped
    store.queueClaims .queueClaim (by simp) fun _ => rfl).mapped
    store.queuePayloads .queuePayload (by simp) fun _ => rfl
  have retention := ((queues.single store.cleanup .cleanup rfl).mapped
    store.hookMarkers .hookMarker (by simp) fun _ => rfl).single store.tombstone .tombstone rfl
  have steps := ((retention.single store.run .run rfl).mapped store.steps .step (by simp) fun _ => rfl).mapped
    store.stepCreated .stepCreated (by simp) fun _ => rfl
  exact ((steps.single store.terminalCleanup .terminalCleanup rfl).mapped store.waits .wait (by simp) fun _ =>
    rfl).1

theorem has_delete_self (key : StoreKey) : (store.delete key).has key = false := by
  cases key <;> simp [delete, has]

/-- Deleting one key deletes no other. -/
theorem has_delete {key deleted : StoreKey} :
    (store.delete deleted).has key = (store.has key && key ≠ deleted) := by
  by_cases same : key = deleted
  · subst same
    simp [has_delete_self]
  · simp only [ne_eq, same, not_false_eq_true, decide_true, Bool.and_true]
    cases deleted <;> cases key <;> first
      | rfl
      | (simp_all [delete, has]; try exact fun _ equal => same equal.symm)

theorem has_of_delete {key deleted : StoreKey} (kept : (store.delete deleted).has key = true) :
    store.has key = true := by
  rw [has_delete, Bool.and_eq_true] at kept
  exact kept.1

theorem has_deleteAll (keys : List StoreKey) {key : StoreKey} :
    (store.deleteAll keys).has key = (store.has key && key ∉ keys) := by
  induction keys generalizing store with
  | nil => simp [deleteAll]
  | cons first keys ih =>
    change ((store.delete first).deleteAll keys).has key = _
    rw [ih, has_delete]
    by_cases same : key = first <;> simp [same]

end RunStore

end CelldWorld
