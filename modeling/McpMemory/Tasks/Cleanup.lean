import McpMemory.Tasks.Change

/-! One execution lane for background cleanup, and epochs that only grow. The lane
is guarded by `claim_next` alone, so the invariant asks of every other operation
that it starts no task. -/
namespace McpMemory.Tasks
open Interleave Table

/- The row that a claim returns is the claimed row, rewritten. -/
theorem claimedRow {tasks : List TaskRecord} {runs now row claimed}
    (unique : UniqueBy (·.id) tasks) (member : row ∈ tasks) (pending : row.status = .pending)
    (found : findTask ⟨update (pendingTask row.id) (claimSet now) tasks,runs⟩ row.id = some claimed) :
    claimed = claimSet now row := by
  obtain ⟨present,named⟩ := findSome found
  obtain ⟨old,oldMember,rfl⟩ := memUpdate.mp present
  have same : old.id = row.id := by
    have kept : (if pendingTask row.id old then claimSet now old else old).id = old.id := by
      split <;> rfl
    simpa [kept] using named
  cases equalOfKey unique oldMember member same
  simp [pendingTask,pending]

structure Lane (tables : Tables) (trace : List Emitted) : Prop where
  unique : UniqueBy (·.id) tables.tasks
  single : tables.tasks.countP (·.runningCleanup) ≤ 1
  epochs : ∀ before claimed now, .claimed before claimed now ∈ trace →
    ∃ task ∈ tables.tasks, task.id = claimed.id ∧ claimed.executionEpoch ≤ task.executionEpoch

theorem claimKeepsLane {tables : Tables} {now workspace row} (unique : UniqueBy (·.id) tables.tasks)
    (single : tables.tasks.countP (·.runningCleanup) ≤ 1) (member : row ∈ tables.tasks)
    (ready : claimable now workspace tables row) :
    (update (pendingTask row.id) (claimSet now) tables.tasks).countP (·.runningCleanup) ≤ 1 := by
  have selected : ∀ task ∈ tables.tasks, pendingTask row.id task → task = row := by
    intro task present hit
    exact equalOfKey unique present member (by simp [pendingTask] at hit; exact hit.1)
  simp only [claimable,Bool.and_eq_true,Bool.or_eq_true,Bool.not_eq_true'] at ready
  rcases ready.2 with other | empty
  · refine Nat.le_trans (countUpdate fun task present hit running => ?_) single
    rw [selected task present hit] at running
    simp only [runningCleanupSource,claimSet] at running
    simp [running.2] at other
  · -- no cleanup runs, so the only one that can is the claimed row
    refine Nat.le_trans ?_ (countKey unique row.id)
    simp only [update,List.countP_map]
    refine List.countP_mono_left fun task present running => ?_
    simp only [Function.comp] at running
    split at running
    · rename_i hit; simp [selected task present hit]
    · simp only [List.any_eq_false] at empty
      exact absurd running (empty task present)

theorem changeSingle {call before after emitted} (change : Change call before after emitted)
    (unique : UniqueBy (·.id) before.tasks) (single : before.tasks.countP (·.runningCleanup) ≤ 1) :
    after.tasks.countP (·.runningCleanup) ≤ 1 := by
  cases change with
  | quiet => exact single
  | create =>
    have pending (req : EnqueueRequest) : req.row.runningCleanup = false := rfl
    simpa [List.countP_append,pending] using single
  | claim _ member ready => exact claimKeepsLane unique single member ready
  | @leave d _ _ _ row =>
    refine Nat.le_trans (countUpdate fun task _ _ running => ?_) single
    rw [runningCleanupSource,departureStatus] at running
    exact absurd running.1 (departureLeaves d row)
  | cancelPending =>
    refine Nat.le_trans (countUpdate fun task _ _ running => ?_) single
    simp [runningCleanupSource,cancelPendingSet] at running
  | cancelRunning => exact Nat.le_trans (countUpdate fun task _ _ running => running) single
  | amend same =>
    refine Nat.le_trans (countUpdate fun task _ _ running => ?_) single
    rw [runningCleanupSource,(same task).status,(same task).taskName,← runningCleanupSource] at running
    exact running

theorem changeLane {call before after emitted trace} (change : Change call before after emitted)
    (lane : Lane before trace) : Lane after (emitted ++ trace) where
  unique := changeUnique change lane.unique
  single := changeSingle change lane.unique lane.single
  epochs := by
    intro row claimed now member
    rcases List.mem_append.mp member with new | old
    · cases change with
      | claim active present ready found =>
        simp only [List.mem_singleton,Emitted.claimed.injEq] at new
        obtain ⟨rfl,rfl,rfl⟩ := new
        exact ⟨claimed,(findSome found).1,rfl,Int.le_refl _⟩
      | quiet | create | leave | cancelPending | cancelRunning | amend => simp at new
    · obtain ⟨task,present,same,le⟩ := lane.epochs row claimed now old
      obtain ⟨later,there,evolves⟩ := changeEvolves change present
      exact ⟨later,there,evolves.id.trans same,Int.le_trans le evolves.epoch⟩

theorem reachedLane (events : Schedule) : Lane (reached events).store (reached events).trace :=
  runKeeps (fun call store _ lane => changeLane (stepChange call store) lane) events
    ⟨List.nodup_nil,by simp [empty],by simp⟩

/- In every reachable state at most one background cleanup task runs, and a
`claim_next` there that returns a task returns one that was pending and available,
under an epoch above each one that the task was ever claimed under. -/
theorem cleanupExclusion (events : Schedule) :
    (reached events).store.tasks.countP (·.runningCleanup) ≤ 1 ∧
    ∀ now workspace claimed after emitted,
      step (.claimNext now workspace) (reached events).store =
        (.answered (.ok (.claimed (some claimed))),after,emitted) →
      ∃ row ∈ (reached events).store.tasks, row.id = claimed.id ∧ row.status = .pending ∧
        row.availableAt ≤ now ∧ claimed.status = .running ∧
        ∀ earlier previous at', .claimed earlier previous at' ∈ (reached events).trace →
          previous.id = claimed.id → previous.executionEpoch < claimed.executionEpoch := by
  have lane := reachedLane events
  refine ⟨lane.single,?_⟩
  intro now workspace claimed after emitted returned
  simp only [step] at returned
  split at returned
  · simp at returned
  · rename_i row result tables ok
    rcases claimNextSource ok with ⟨absent,_⟩ | ⟨_,_,same,member,ready,rfl,found⟩
    · cases absent
    · cases same
      simp only [Prod.mk.injEq,Call.answered.injEq,Except.ok.injEq,Answer.claimed.injEq,
        Option.some.injEq] at returned
      obtain ⟨rfl,_,_⟩ := returned
      simp only [claimable,Bool.and_eq_true,beq_iff_eq,decide_eq_true_eq] at ready
      obtain ⟨⟨⟨pending,due⟩,_⟩,_⟩ := ready
      cases claimedRow lane.unique member pending found
      refine ⟨row,member,rfl,pending,due,rfl,?_⟩
      intro earlier previous at' logged named
      obtain ⟨task,present,sameId,le⟩ := lane.epochs earlier previous at' logged
      cases equalOfKey lane.unique present member (sameId.trans named)
      simp only [claimSet]
      omega

end McpMemory.Tasks
