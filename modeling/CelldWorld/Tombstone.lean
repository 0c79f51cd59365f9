import CelldWorld.Retention

namespace CelldWorld

/-- The keys that payload deletion deletes. -/
def StoreKey.isPayload (key : StoreKey) : Bool :=
  key ≠ .cleanup ∧ key ≠ .tombstone

/-- The store that expiry leaves: the tombstone, and an alarm that may still be set. -/
def RunTombstone.store (tombstone : RunTombstone) (alarm : Option Nat) : RunStore :=
  { tombstone := some tombstone, alarm }

namespace RunStore
variable {store : RunStore}

theorem countP_single {α : Type} {value : Option α} {key : StoreKey} :
    (if value.isSome then [key] else []).countP (fun key => !key.isPayload) ≤ if key.isPayload then 0 else 1 := by
  cases value.isSome <;> cases spared : key.isPayload <;> simp [spared]

/-- Only the cleanup record and the tombstone are spared by payload deletion. -/
theorem spared_le (store : RunStore) : store.keys.countP (fun key => !key.isPayload) ≤ 2 := by
  have single {α : Type} (value : Option α) (key : StoreKey) := @countP_single α value key
  have spared {α : Type} (keys : List α) (key : α → StoreKey) (payload : ∀ k, (key k).isPayload = true) :
      (keys.map key).countP (fun key => !key.isPayload) = 0 := by
    rw [List.countP_eq_zero]
    intro other member
    obtain ⟨k, -, rfl⟩ := List.mem_map.mp member
    simp [payload k]
  have sequence : (if store.eventSequence = 0 then [] else [StoreKey.eventSequence]).countP
      (fun key => !key.isPayload) = 0 := by
    split <;> rfl
  have scope := Nat.le_zero.mp (single store.queueClaimScope .queueClaimScope)
  have cleanup : _ ≤ 1 := single store.cleanup .cleanup
  have tombstone : _ ≤ 1 := single store.tombstone .tombstone
  have run := Nat.le_zero.mp (single store.run .run)
  have terminal := Nat.le_zero.mp (single store.terminalCleanup .terminalCleanup)
  unfold keys
  simp only [List.countP_append, sequence]
  rw [spared _ .attrEvent fun _ => rfl, spared _ .event fun _ => rfl, spared _ .hook fun _ => rfl,
    spared _ .hookClaimCancelled fun _ => rfl, spared _ .hookCreated fun _ => rfl,
    spared _ .hookEvent fun _ => rfl, spared _ .hookForced fun _ => rfl, spared _ .hookReleased fun _ => rfl,
    spared _ .hookResume fun _ => rfl, spared _ .queueClaim fun _ => rfl, spared _ .queuePayload fun _ => rfl,
    spared _ .hookMarker fun _ => rfl, spared _ .step fun _ => rfl, spared _ .stepCreated fun _ => rfl,
    spared _ .wait fun _ => rfl]
  rw [scope, run, terminal]
  omega

theorem map_empty {κ ν : Type} {cmp : κ → κ → Ordering} [Std.TransCmp cmp] {map : Std.ExtTreeMap κ ν cmp}
    (absent : ∀ key ∈ map.keys, False) : map = ∅ := by
  rw [← Std.ExtTreeMap.isEmpty_iff, ← Std.ExtTreeMap.isEmpty_keys, List.isEmpty_iff]
  exact List.eq_nil_iff_forall_not_mem.mpr absent

/-- A cell without payload keys stores the cleanup record and the tombstone at most. -/
theorem bare_of_spared (spared : ∀ key ∈ store.keys, key.isPayload = false) :
    ∃ cleanup tombstone alarm, store = { cleanup, tombstone, alarm } := by
  have mapped {κ ν : Type} {cmp : κ → κ → Ordering} [Std.TransCmp cmp] {map : Std.ExtTreeMap κ ν cmp}
      {wrap : κ → StoreKey} (payload : ∀ k, (wrap k).isPayload = true)
      (spared : ∀ key ∈ map.keys.map wrap, key.isPayload = false) : map = ∅ :=
    map_empty fun k member => by
      have := spared (wrap k) (List.mem_map_of_mem member)
      rw [payload] at this
      cases this
  have single {α : Type} {value : Option α} {key : StoreKey} (payload : key.isPayload = true)
      (spared : ∀ other ∈ (if value.isSome then [key] else []), StoreKey.isPayload other = false) :
        value = none := by
    cases value with
    | none => rfl
    | some =>
      have := spared key (.head _)
      rw [payload] at this
      cases this
  have sequence {size : Nat}
      (spared : ∀ key ∈ (if size = 0 then [] else [StoreKey.eventSequence]), StoreKey.isPayload key = false) :
      size = 0 := by
    split at spared
    · assumption
    · cases spared _ (.head _)
  unfold keys at spared
  simp only [List.forall_mem_append] at spared
  obtain ⟨⟨⟨⟨⟨⟨⟨⟨⟨⟨⟨⟨⟨⟨⟨⟨⟨⟨⟨⟨attrEvent, events⟩, eventSequence⟩, hooks⟩, hookClaimCancelled⟩, hookCreated⟩,
    hookEvent⟩, hookForced⟩, hookReleased⟩, hookResume⟩, queueClaimScope⟩, queueClaims⟩, queuePayloads⟩, -⟩,
    hookMarkers⟩, -⟩, run⟩, steps⟩, stepCreated⟩, terminalCleanup⟩, waits⟩ := spared
  refine ⟨store.cleanup, store.tombstone, store.alarm, ?_⟩
  apply RunStore.ext
  case run => exact single rfl run
  case eventSequence => exact sequence eventSequence
  case queueClaimScope => exact single rfl queueClaimScope
  case terminalCleanup => exact single rfl terminalCleanup
  case events => exact mapped (fun _ => rfl) events
  case steps => exact mapped (fun _ => rfl) steps
  case stepCreated => exact mapped (fun _ => rfl) stepCreated
  case hooks => exact mapped (fun _ => rfl) hooks
  case hookCreated => exact mapped (fun _ => rfl) hookCreated
  case hookEvent => exact mapped (fun _ => rfl) hookEvent
  case hookReleased => exact mapped (fun _ => rfl) hookReleased
  case hookClaimCancelled => exact mapped (fun _ => rfl) hookClaimCancelled
  case hookResume => exact mapped (fun _ => rfl) hookResume
  case hookForced => exact mapped (fun _ => rfl) hookForced
  case attrEvent => exact mapped (fun _ => rfl) attrEvent
  case waits => exact mapped (fun _ => rfl) waits
  case hookMarkers => exact mapped (fun _ => rfl) hookMarkers
  case queueClaims => exact mapped (fun _ => rfl) queueClaims
  case queuePayloads => exact mapped (fun _ => rfl) queuePayloads
  all_goals rfl

/-- A page that finds no payload key has seen every key of the cell. -/
theorem bare_of_page (page : (store.keys.take (PAYLOAD_DELETE_BATCH + 3)).filter StoreKey.isPayload = []) :
    ∃ cleanup tombstone alarm, store = { cleanup, tombstone, alarm } := by
  have spared : ∀ key ∈ store.keys.take (PAYLOAD_DELETE_BATCH + 3), key.isPayload = false := by
    simpa using List.filter_eq_nil_iff.mp page
  have counted : (store.keys.take (PAYLOAD_DELETE_BATCH + 3)).countP (fun key => !key.isPayload) =
      (store.keys.take (PAYLOAD_DELETE_BATCH + 3)).length :=
    List.countP_eq_length.mpr fun key member => by rw [spared key member]; rfl
  have fewer : (store.keys.take (PAYLOAD_DELETE_BATCH + 3)).countP (fun key => !key.isPayload) ≤
      store.keys.countP (fun key => !key.isPayload) :=
    (List.take_sublist _ _).countP_le
  have most := store.spared_le
  have short : store.keys.length ≤ PAYLOAD_DELETE_BATCH + 3 := by
    rw [counted, List.length_take] at fewer
    have : 2 < PAYLOAD_DELETE_BATCH + 3 := by decide
    omega
  rw [List.take_of_length_le short] at spared
  exact bare_of_spared spared

/-- Nothing but the tombstone is stored. -/
def Bare (store : RunStore) : Prop :=
  ∃ tombstone : RunTombstone, ∃ alarm, store = tombstone.store alarm

theorem Bare.keys (bare : store.Bare) : store.keys = [.tombstone] := by
  obtain ⟨tombstone, alarm, rfl⟩ := bare
  have none_ {κ ν : Type} {cmp : κ → κ → Ordering} [Std.TransCmp cmp] :
      (∅ : Std.ExtTreeMap κ ν cmp).keys = [] :=
    List.isEmpty_iff.mp (Std.ExtTreeMap.isEmpty_keys.trans Std.ExtTreeMap.isEmpty_empty)
  unfold keys RunTombstone.store
  simp [none_]

end RunStore

end CelldWorld
