import CelldWorld.Values

namespace CelldWorld

/-- The constants and functions of `@workflow/world` that the cells call. A
schema is taken as a check: parsing keeps a valid value and throws otherwise. -/
structure WorldContract where
  specVersionCurrent : Nat
  specVersionLegacy : Nat
  specVersionSupportsHookForceClaim : Nat
  slotToEventId : Nat → String
  eventIdToSlot : String → Option Nat
  eventIdToSlot_slotToEventId : ∀ slot, eventIdToSlot (slotToEventId slot) = some slot
  slotToEventId_lt : ∀ {earlier later}, earlier < later → slotToEventId earlier < slotToEventId later
  getMaxEventsPerRun : Nat
  createEventSchema : CreateEventRequest → Bool
  eventSchema : Event → Bool
  workflowRunSchema : WorkflowRun → Bool
  stepSchema : Step → Bool
  hookSchema : Hook → Bool
  waitSchema : Wait → Bool
  hookClaimedFromSchema : HookClaimedFrom → Bool
  isChildEntityCreationEvent : CreateEvent → Bool
  stepCreated_isChild : ∀ id eventData, isChildEntityCreationEvent (.stepCreated id eventData) = true
  hookCreated_isChild : ∀ id eventData, isChildEntityCreationEvent (.hookCreated id eventData) = true
  waitCreated_isChild : ∀ id resumeAt, isChildEntityCreationEvent (.waitCreated id resumeAt) = true
  /-- `validateAttributeChanges changes existingKeys allowReservedAttributes` throws when false. -/
  validateAttributeChanges : List AttributeChange → List String → Option Bool → Bool
  applyAttributeChanges : Attributes → List AttributeChange → Attributes

namespace WorldContract
variable (W : WorldContract)

theorem slotToEventId_injective : Function.Injective W.slotToEventId := by
  intro i j same
  have slots := congrArg W.eventIdToSlot same
  rw [W.eventIdToSlot_slotToEventId, W.eventIdToSlot_slotToEventId] at slots
  exact Option.some.inj slots

@[simp] theorem slotToEventId_inj {i j : Nat} : W.slotToEventId i = W.slotToEventId j ↔ i = j :=
  W.slotToEventId_injective.eq_iff

/-- A request that the schema has parsed names no claimer of a forced disposal: where
`hook_disposed` is sent with a `forceClaimedBy`, parsing drops it or throws. -/
def DropsForceClaims : Prop :=
  ∀ request, W.createEventSchema request = true → ∀ id token claimedBy,
    request.data ≠ .hookDisposed id token (some claimedBy)

/-- A contract whose event IDs count in unary and whose schemas take everything. -/
def unary : WorldContract where
  specVersionCurrent := 5
  specVersionLegacy := 1
  specVersionSupportsHookForceClaim := 5
  slotToEventId slot := String.ofList (List.replicate slot '0')
  eventIdToSlot id := some id.toList.length
  eventIdToSlot_slotToEventId slot := by rw [String.toList_ofList, List.length_replicate]
  slotToEventId_lt {earlier later} lower := by
    rw [String.lt_iff, String.toList_ofList, String.toList_ofList]
    obtain ⟨extra, rfl⟩ := Nat.exists_eq_add_of_lt lower
    induction earlier with
    | zero => exact List.nil_lt_cons _ _
    | succ earlier ih =>
      rw [Nat.add_right_comm earlier 1 extra, List.replicate_succ, List.replicate_succ,
        List.cons_lt_cons_self]
      exact ih (by omega)
  getMaxEventsPerRun := 1000
  createEventSchema _ := true
  eventSchema _ := true
  workflowRunSchema _ := true
  stepSchema _ := true
  hookSchema _ := true
  waitSchema _ := true
  hookClaimedFromSchema _ := true
  isChildEntityCreationEvent
    | .stepCreated .. | .hookCreated .. | .waitCreated .. => true
    | .stepStarted _ (some eventData) => eventData.input.isSome
    | _ => false
  stepCreated_isChild _ _ := rfl
  hookCreated_isChild _ _ := rfl
  waitCreated_isChild _ _ := rfl
  validateAttributeChanges _ _ _ := true
  applyAttributeChanges attributes changes := changes.foldl (fun attributes change =>
    let others := attributes.filter (·.1 ≠ change.key)
    match change.value with
    | some value => others ++ [(change.key, value)]
    | none => others) attributes

/-- The unary contract with a schema that refuses a client's `forceClaimedBy`. -/
def dropping : WorldContract :=
  { unary with
    createEventSchema := fun request => match request.data with
      | .hookDisposed _ _ (some _) => false
      | _ => true }

theorem dropping_drops : dropping.DropsForceClaims := by
  intro request parsed id token claimedBy data
  simp [dropping, data] at parsed

end WorldContract

/-- What a cell's transaction throws; the transaction is then rolled back. -/
inductive Thrown
  | typeError (message : String)
  | schemaError (schema : String)
  | attributeError
  | error (message : String)
  deriving DecidableEq, Repr

/-- A computation that returns has run both of its parts. -/
theorem bind_ok {α β : Type} {first : Except Thrown α} {second : α → Except Thrown β} {result : β} :
    (first >>= second) = .ok result ↔ ∃ value, first = .ok value ∧ second value = .ok result := by
  cases first with
  | error thrown => exact ⟨nofun, nofun⟩
  | ok value => exact ⟨fun run => ⟨value, rfl, run⟩, fun ⟨_, same, run⟩ => Except.ok.inj same ▸ run⟩

theorem bind_of_ok {α β : Type} {first : Except Thrown α} {second : α → Except Thrown β} {value : α}
    (run : first = .ok value) : (first >>= second) = second value :=
  run ▸ rfl

theorem isOk_iff {α : Type} {body : Except Thrown α} : body.isOk = true ↔ ∃ value, body = .ok value := by
  cases body with
  | error thrown => exact ⟨nofun, nofun⟩
  | ok value => exact ⟨fun _ => ⟨value, rfl⟩, fun _ => rfl⟩

theorem map_ok {α β : Type} {body : Except Thrown α} {answer : α → β} {result : β} :
    body.map answer = .ok result ↔ ∃ value, body = .ok value ∧ answer value = result := by
  cases body with
  | error thrown => exact ⟨nofun, nofun⟩
  | ok value =>
    exact ⟨fun run => ⟨value, rfl, Except.ok.inj run⟩, fun ⟨_, same, run⟩ => Except.ok.inj same ▸ run ▸ rfl⟩

/-- `Schema.parse`: the value itself, or a schema error. -/
def parseWith {α : Type} (schema : String) (valid : α → Bool) (value : α) : Except Thrown α :=
  if valid value then .ok value else .error (.schemaError schema)

theorem parseWith_ok {α : Type} {schema : String} {valid : α → Bool} {value parsed : α} :
    parseWith schema valid value = .ok parsed ↔ valid value = true ∧ value = parsed := by
  unfold parseWith
  split <;> simp_all

end CelldWorld
