import CelldWorld.EventOrigins

namespace CelldWorld

/-- The stored run has the spec version of the event that created it. -/
def CreatedVersion (store : RunStore) (history : List Event) : Prop :=
  ∀ run, store.run = some run → ∃ event ∈ history, (∃ eventData, event.data = .runCreated eventData) ∧
    event.specVersion = run.specVersion

theorem createdVersion_invariant (W : WorldContract) (runId : String) (clock : Nat → Nat → Prop) :
    CellInvariant W runId clock fun _ => CreatedVersion where
  start _ run current := by cases current
  tick _ state := state
  journal {now before after history event} state stamped journal := by
    have earlier {run : WorkflowRun} (current : before.run = some run) : ∃ created ∈ history ++ [event],
        (∃ eventData, created.data = .runCreated eventData) ∧ created.specVersion = run.specVersion := by
      obtain ⟨created, member, kind, version⟩ := state run current
      exact ⟨created, List.mem_append_left _ member, kind, version⟩
    intro run current
    cases journal with
    | runCreated data absent =>
      obtain rfl := Option.some.inj current
      exact ⟨event, by simp, ⟨_, data⟩, rfl⟩
    | runStarted data stored | runFinished ends stored | attrSet data stored =>
      obtain rfl := Option.some.inj current
      have found := earlier stored
      exact found
    | _ => exact earlier current
  quiet {now before after history} state quiet := by
    intro run current
    have same := quiet.run
    rw [current, Option.map_some] at same
    obtain ⟨stored, found, unexpired⟩ := Option.map_eq_some_iff.mp same.symm
    obtain ⟨created, member, kind, version⟩ := state stored found
    have kept : stored.specVersion = run.specVersion := congrArg (·.specVersion) unexpired
    exact ⟨created, member, kind, version.trans kept⟩

variable {W : WorldContract} {runId : String} {clock : Nat → Nat → Prop} {now : Nat} {store : RunStore}
variable {history : List Event}

/-- Runs are created in the current spec version only. -/
theorem CellReach.created_current (reach : CellReach W runId clock now store history) :
    ∀ event ∈ history, ∀ eventData, event.data = .runCreated eventData →
      event.specVersion = W.specVersionCurrent := by
  induction reach with
  | start =>
    intro event member
    cases member
  | @next earlier now store history op reach tick ih =>
    intro event member eventData created
    rcases List.mem_append.mp member with old | new
    · exact ih event old eventData created
    · cases reach.origin new with
      | request request ctx same parsed supported records => exact records.specVersion.trans supported
      | forced hookId token claimedBy data => cases created.symm.trans data

/-- Every run that a cell still keeps is of the current spec version. -/
theorem CellReach.run_current {run : WorkflowRun} (reach : CellReach W runId clock now store history)
    (before : store.beforePayload = true) (current : store.run = some run) :
    run.specVersion = W.specVersionCurrent := by
  obtain ⟨-, state⟩ := ((createdVersion_invariant W runId clock).reach reach).1 before
  obtain ⟨event, member, ⟨eventData, created⟩, version⟩ := state run current
  exact version.symm.trans (reach.created_current event member eventData created)

end CelldWorld
