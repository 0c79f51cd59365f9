import CelldWorld.ExpiryReports

namespace CelldWorld

/-- The place of a phase in the retention cleanup. -/
def CleanupPhase.rank : CleanupPhase → Nat
  | .retained => 0
  | .index => 1
  | .streams => 2
  | .queues => 3
  | .payload => 4
  | .tombstoned => 5

/-- A page that ends its phase. -/
def CleanupPage.isLast : CleanupPage → Bool
  | .start => true
  | .index _ more => !more
  | .streams _ done => done
  | .queues _ more => !more
  | .payload => false

/-- A page moves the record by one phase at most, and only if it is the last of its phase. -/
theorem CleanupPage.moves {page : CleanupPage} {record : CleanupRecord} {phase : CleanupPhase}
    (paged : page ≠ .payload)
    (before : page.phase.rank < phase.rank) (after : phase.rank ≤ (page.update record).phase.rank) :
    page.isLast = true ∧ phase = page.phase.next := by
  cases page with
  | start => cases phase <;> simp_all [CleanupPage.phase, update, CleanupPhase.rank, CleanupPhase.next, isLast]
  | index markers more =>
    cases more <;> cases phase <;> simp_all [CleanupPage.phase, update, CleanupPhase.rank,
      CleanupPhase.next, isLast]
  | streams deleted done =>
    cases done <;> cases phase <;> simp_all [CleanupPage.phase, update, CleanupPhase.rank,
      CleanupPhase.next, isLast]
  | queues ids more =>
    cases more <;> cases phase <;> simp_all [CleanupPage.phase, update, CleanupPhase.rank,
      CleanupPhase.next, isLast]
  | payload => exact absurd rfl paged

variable {W : WorldContract} {runId : String} {now : Nat} {store before after : RunStore} {op : CellOp}

/-- What a transaction that commits no page does to the record that `getCleanupStatus` shows. -/
inductive StatusStep (before after : Option CleanupRecord) : Prop
  | kept (same : after = before)
  | scheduled {record : CleanupRecord} (absent : before = none) (status : after = some record)
      (retained : record.phase = .retained) (counts : record.counts = (0, 0, 0))
  | rewritten {record next : CleanupRecord} (stored : before = some record) (status : after = some next)
      (generation : next.generation = record.generation + 1) (phase : next.phase = record.phase)
      (counts : next.counts = record.counts)

theorem RecordStep.status (step : RecordStep now op before after) (other : op.pageRecord = none) :
    StatusStep (WorkflowRunDO.getCleanupStatus before) (WorkflowRunDO.getCleanupStatus after) := by
  unfold WorkflowRunDO.getCleanupStatus
  have unpaged {expected : CleanupRecord} : op.pageRecord ≠ some expected := by
    rw [other]
    nofun
  cases step with
  | kept cleanup tombstone =>
    rw [cleanup, tombstone]
    exact .kept rfl
  | scheduled absent alive cleanup tombstone retained first counts =>
    rw [absent, alive, cleanup]
    exact .scheduled rfl rfl retained counts
  | @changed record next stored cleanup tombstone generation change =>
    rw [stored, cleanup]
    refine .rewritten rfl rfl generation ?_ ?_
    · cases change with
      | aged before phase => exact phase.trans before.symm
      | due phase => exact phase
      | failed phase => exact phase
      | paged page => exact absurd page unpaged
    · cases change with
      | aged _ _ _ counts => exact counts
      | due _ _ counts => exact counts
      | failed _ _ counts => exact counts
      | paged page => exact absurd page unpaged
  | batched stored payload cleanup tombstone generation phase dueAt page =>
    rw [other] at page
    cases page
  | finished stored payload cleanup tombstone generation phase dueAt bare page =>
    rw [other] at page
    cases page

end CelldWorld
