import McpMemory.Tasks.Calls

/-! Everything one step of a call can do to the tables, stated once: `Change` names
the operation behind the step, the row it acts on and the tables it leaves. The
invariants of the queue are all read off it. -/
namespace McpMemory.Tasks
open Interleave Table

/- The call that touches the tables next: inside a recovery, the nested one. -/
def Call.active : Call → Call
  | .recovering _ _ current _ _ => current.active
  | call => call

/- A rewrite of a row that no lifecycle rule looks at. -/
structure Amends (row after : TaskRecord) : Prop where
  id : after.id = row.id
  taskName : after.taskName = row.taskName
  workspaceId : after.workspaceId = row.workspaceId
  status : after.status = row.status
  executionEpoch : after.executionEpoch = row.executionEpoch
  flag : after.cancellationRequestedAt = row.cancellationRequestedAt

inductive Change (call : Call) (before : Tables) : Tables → List Emitted → Prop where
  | quiet : Change call before before []
  | create {req unique} (active : call.active = if unique then .insertUnique req else .enqueue req)
      (named : Text.strip req.taskName ≠ "")
      (fresh : ∀ task ∈ before.tasks, task.id ≠ req.row.id) :
      Change call before ⟨before.tasks ++ [req.row],before.taskRuns⟩ [.created req.identifier unique]
  | claim {now workspace row claimed} (active : call.active = .claimNext now workspace)
      (member : row ∈ before.tasks) (ready : claimable now workspace before row)
      (found : findTask ⟨update (pendingTask row.id) (claimSet now) before.tasks,before.taskRuns⟩
        row.id = some claimed) :
      Change call before ⟨update (pendingTask row.id) (claimSet now) before.tasks,before.taskRuns⟩
        [.claimed row claimed now]
  | leave {d taskId epoch now row current}
      (active : call.active = .leaving d taskId epoch now row)
      (found : before.tasks.find? (runningTask taskId epoch) = some current) :
      Change call before ⟨update (runningTask taskId epoch) (d.set now row) before.tasks,
        before.taskRuns ++ [d.run now taskId row before]⟩
        [.recorded (d.run now taskId row before) (some current.executionEpoch)]
  | cancelPending {req row current} (found : before.tasks.find? (pendingTask req.taskId) = some current) :
      Change call before ⟨update (pendingTask req.taskId) (cancelPendingSet req) before.tasks,
        before.taskRuns ++ [cancelledRun req row before]⟩
        [.recorded (cancelledRun req row before) none]
  | cancelRunning {req current}
      (found : before.tasks.find? (runningTask req.taskId none) = some current) :
      Change call before ⟨update (runningTask req.taskId none) (cancelRunningSet req) before.tasks,
        before.taskRuns⟩ [.cancelRequested req.taskId]
  | amend {sel set} (same : ∀ row, Amends row (set row)) :
      Change call before ⟨update sel set before.tasks,before.taskRuns⟩ []

theorem Change.under {inner outer before after emitted} (change : Change inner before after emitted)
    (same : inner.active = outer.active) : Change outer before after emitted := by
  cases change with
  | quiet => exact .quiet
  | create active named fresh => exact .create (same ▸ active) named fresh
  | claim active member ready found => exact .claim (same ▸ active) member ready found
  | leave active found => exact .leave (same ▸ active) found
  | cancelPending found => exact .cancelPending found
  | cancelRunning found => exact .cancelRunning found
  | amend amends => exact .amend amends

theorem enqueueSource {req before after} (ok : enqueue req before = .ok after) :
    Text.strip req.taskName ≠ "" ∧ (∀ task ∈ before.tasks, task.id ≠ req.row.id) ∧
      after = ⟨before.tasks ++ [req.row],before.taskRuns⟩ := by
  unfold enqueue at ok
  split at ok
  · contradiction
  · rename_i named
    split at ok
    · contradiction
    · rename_i absent
      cases ok
      refine ⟨named,?_,rfl⟩
      simpa [EnqueueRequest.row] using absent

theorem nextClaimableSource {now workspace tables row}
    (found : nextClaimable now workspace tables = some row) :
    row ∈ tables.tasks ∧ claimable now workspace tables row :=
  List.mem_filter.mp ((List.mem_insertionSort _).mp (List.mem_of_mem_head? found))

theorem claimNextSource {now workspace before result after}
    (ok : claimNext now workspace before = (result,after)) :
    (result = none ∧ after = before) ∨ ∃ row claimed, result = some (row,claimed) ∧
      row ∈ before.tasks ∧ claimable now workspace before row ∧
      after = ⟨update (pendingTask row.id) (claimSet now) before.tasks,before.taskRuns⟩ ∧
      findTask after row.id = some claimed := by
  unfold claimNext at ok
  split at ok
  · cases ok; exact .inl ⟨rfl,rfl⟩
  · rename_i row found
    obtain ⟨member,ready⟩ := nextClaimableSource found
    split at ok
    · obtain ⟨rfl,rfl⟩ := Prod.mk.inj ok
      cases named : findTask ⟨update (pendingTask row.id) (claimSet now) before.tasks,
          before.taskRuns⟩ row.id with
      | some claimed => exact .inr ⟨row,claimed,by simp,member,ready,rfl,named⟩
      | none =>
        -- the claimed row is still there under its id
        have gone := findNone named
        have kept : (if pendingTask row.id row then claimSet now row else row).id = row.id := by
          split <;> rfl
        exact absurd kept (by simpa using gone _ (memUpdate.mpr ⟨row,member,rfl⟩))
    · cases ok; exact .inl ⟨rfl,rfl⟩

theorem leaveRunningSource {d taskId epoch now row before current run after}
    (ok : leaveRunning d taskId epoch now row before = .ok (current,run,after)) :
    ∃ task, before.tasks.find? (runningTask taskId epoch) = some task ∧
      current = task.executionEpoch ∧ run = d.run now taskId row before ∧
      after = ⟨update (runningTask taskId epoch) (d.set now row) before.tasks,before.taskRuns ++ [run]⟩ := by
  unfold leaveRunning at ok
  split at ok
  · contradiction
  · rename_i task found
    cases ok
    exact ⟨task,found,rfl,rfl,rfl⟩

theorem mutateSource {m taskId now before after}
    (ok : mutateRunningTaskData m taskId now before = .ok after) :
    after = before ∨ ∃ data, after = ⟨update (openTask taskId) (fun task =>
      { task with data := data, updatedAt := now }) before.tasks,before.taskRuns⟩ := by
  unfold mutateRunningTaskData at ok
  split at ok
  · contradiction
  · split at ok
    · exact .inl (Except.ok.inj ok).symm
    · rename_i data _; exact .inr ⟨data,(Except.ok.inj ok).symm⟩

theorem stepChange (call : Call) (tables : Tables) :
    Change call tables (step call tables).2.1 (step call tables).2.2 := by
  induction call with
  | enqueue req =>
    simp only [step]
    split
    · exact .quiet
    · rename_i after ok
      obtain ⟨named,fresh,rfl⟩ := enqueueSource ok
      exact .create rfl named fresh
  | insertUnique req =>
    simp only [step]
    split
    · exact .quiet
    · exact .quiet
    · rename_i after ok
      obtain ⟨named,fresh,rfl⟩ := enqueueSource ok
      exact .create rfl named fresh
  | enqueueUnique req => simp only [step]; split <;> exact .quiet
  | findAgain req => simp only [step]; split <;> exact .quiet
  | claimNext now workspace =>
    simp only [step]
    split
    · rename_i after none
      rcases claimNextSource none with ⟨_,rfl⟩ | ⟨_,_,other,_⟩
      · exact .quiet
      · cases other
    · rename_i row claimed after ok
      rcases claimNextSource ok with ⟨other,_⟩ | ⟨_,_,same,member,ready,rfl,found⟩
      · cases other
      · cases same; exact .claim rfl member ready found
  | leaving d taskId epoch now row =>
    simp only [step]
    split
    · exact .quiet
    · rename_i current run after ok
      obtain ⟨task,found,rfl,rfl,rfl⟩ := leaveRunningSource ok
      exact .leave rfl found
  | touch t taskId epoch now =>
    simp only [step,touchRunning]
    cases tables.tasks.find? (runningTask taskId epoch) with
    | none => exact .quiet
    | some _ => exact .amend fun row => by cases t <;> exact ⟨rfl,rfl,rfl,rfl,rfl,rfl⟩
  | requestCancel req =>
    simp only [step]
    split
    · exact .quiet
    · split
      · exact .quiet
      · split <;> exact .quiet
  | cancelPending req row =>
    simp only [step,Tasks.cancelPending]
    cases found : tables.tasks.find? (pendingTask req.taskId) with
    | none => exact .quiet
    | some current => exact .cancelPending found
  | cancelRunning req =>
    simp only [step,Tasks.cancelRunning]
    cases found : tables.tasks.find? (runningTask req.taskId none) with
    | none => exact .quiet
    | some current => exact .cancelRunning found
  | updatePendingTask req => simp only [step]; split <;> exact .quiet
  | updatingPending req row =>
    simp only [step,Tasks.updatePendingTask]
    cases tables.tasks.find? (pendingTask req.taskId) with
    | none => exact .quiet
    | some _ => exact .amend fun row => ⟨rfl,rfl,rfl,rfl,rfl,rfl⟩
  | mutateRunningTaskData m taskId now =>
    simp only [step]
    split
    · exact .quiet
    · rename_i after ok
      rcases mutateSource ok with rfl | ⟨data,rfl⟩
      · exact .quiet
      · exact .amend fun row => ⟨rfl,rfl,rfl,rfl,rfl,rfl⟩
  | recovering r env current todo recovered ih => exact ih.under rfl
  | leave | getTask | getCreated | recover | settle | settling | answered => exact .quiet

/- What any step may do to one row. -/
structure Evolves (row later : TaskRecord) : Prop where
  id : later.id = row.id
  taskName : later.taskName = row.taskName
  workspaceId : later.workspaceId = row.workspaceId
  epoch : row.executionEpoch ≤ later.executionEpoch
  running : later.status = .running →
    row.status = .running ∧ later.executionEpoch = row.executionEpoch ∨
      row.executionEpoch < later.executionEpoch
  terminal : row.terminal → later.status = row.status

theorem Evolves.refl (row : TaskRecord) : Evolves row row :=
  ⟨rfl,rfl,rfl,Int.le_refl _,fun running => .inl ⟨running,rfl⟩,fun _ => rfl⟩

theorem pendingSource {taskId task} : pendingTask taskId task = true ↔
    task.id = taskId ∧ task.status = .pending := by simp [pendingTask]

theorem claimEvolves {taskId now row} (selected : pendingTask taskId row) :
    Evolves row (claimSet now row) where
  id := rfl
  taskName := rfl
  workspaceId := rfl
  epoch := Int.le_of_lt (Int.lt_succ row.executionEpoch)
  running := fun _ => .inr (Int.lt_succ row.executionEpoch)
  terminal := by
    intro terminal
    simp [TaskRecord.terminal,Status.opened,(pendingSource.mp selected).2] at terminal

theorem leaveEvolves {d : Departure} {taskId epoch now row task} (selected : runningTask taskId epoch task) :
    Evolves task (d.set now row task) where
  id := by simp
  taskName := by simp
  workspaceId := by simp
  epoch := by simp
  running := fun running => absurd ((departureStatus d now row task).symm.trans running)
    (departureLeaves d row)
  terminal := by
    intro terminal
    simp [TaskRecord.terminal,Status.opened,(runningTaskSource.mp selected).2.1] at terminal

theorem cancelEvolves {req : CancelRequest} {row} (selected : pendingTask req.taskId row) :
    Evolves row (cancelPendingSet req row) where
  id := rfl
  taskName := rfl
  workspaceId := rfl
  epoch := Int.le_refl _
  running := by simp [cancelPendingSet]
  terminal := by
    intro terminal
    simp [TaskRecord.terminal,Status.opened,(pendingSource.mp selected).2] at terminal

theorem amendEvolves {row later} (same : Amends row later) : Evolves row later where
  id := same.id
  taskName := same.taskName
  workspaceId := same.workspaceId
  epoch := Int.le_of_eq same.executionEpoch.symm
  running := fun running => .inl ⟨same.status ▸ running,same.executionEpoch⟩
  terminal := fun _ => same.status

/- A step appends one fresh pending row, or rewrites rows in place. -/
theorem changeRows {call before after emitted} (change : Change call before after emitted) :
    (∃ req unique, emitted = [.created (EnqueueRequest.identifier req) unique] ∧
      after.tasks = before.tasks ++ [req.row] ∧ (∀ task ∈ before.tasks, task.id ≠ req.row.id) ∧
      call.active = if unique then .insertUnique req else .enqueue req) ∨
    ∃ sel set, after.tasks = update sel set before.tasks ∧
      ∀ row ∈ before.tasks, sel row → Evolves row (set row) := by
  cases change with
  | quiet => exact .inr ⟨fun _ => false,id,by simp [update],fun row _ hit => by simp at hit⟩
  | create active named fresh => exact .inl ⟨_,_,rfl,rfl,fresh,active⟩
  | claim => exact .inr ⟨_,_,rfl,fun row _ hit => claimEvolves hit⟩
  | leave => exact .inr ⟨_,_,rfl,fun row _ hit => leaveEvolves hit⟩
  | cancelPending => exact .inr ⟨_,_,rfl,fun row _ hit => cancelEvolves hit⟩
  | cancelRunning =>
    exact .inr ⟨_,_,rfl,fun row _ hit => ⟨rfl,rfl,rfl,Int.le_refl _,fun h => .inl ⟨h,rfl⟩,fun _ => rfl⟩⟩
  | amend same => exact .inr ⟨_,_,rfl,fun row _ _ => amendEvolves (same row)⟩

theorem changeEvolves {call before after emitted} (change : Change call before after emitted)
    {row} (member : row ∈ before.tasks) : ∃ later ∈ after.tasks, Evolves row later := by
  rcases changeRows change with ⟨req,unique,_,rows,_⟩ | ⟨sel,set,rows,evolves⟩ <;> rw [rows]
  · exact ⟨row,List.mem_append_left _ member,.refl row⟩
  · refine ⟨_,memUpdate.mpr ⟨row,member,rfl⟩,?_⟩
    split
    · rename_i hit; exact evolves row member hit
    · exact .refl row

theorem changeOrigin {call before after emitted} (change : Change call before after emitted)
    {later} (member : later ∈ after.tasks) : (∃ row ∈ before.tasks, Evolves row later) ∨
      ∃ req unique, emitted = [.created (EnqueueRequest.identifier req) unique] ∧ later = req.row ∧
        (∀ task ∈ before.tasks, task.id ≠ req.row.id) ∧
        call.active = if unique then .insertUnique req else .enqueue req := by
  rcases changeRows change with ⟨req,unique,emits,rows,fresh,active⟩ | ⟨sel,set,rows,evolves⟩ <;>
    rw [rows] at member
  · rcases List.mem_append.mp member with old | new
    · exact .inl ⟨later,old,.refl later⟩
    · exact .inr ⟨req,unique,emits,List.mem_singleton.mp new,fresh,active⟩
  · obtain ⟨row,old,rfl⟩ := memUpdate.mp member
    refine .inl ⟨row,old,?_⟩
    split
    · rename_i hit; exact evolves row old hit
    · exact .refl row

/- A created task was not there before and is there now. -/
theorem changeCreated {call before after taskId unique emitted}
    (change : Change call before after emitted) (created : .created taskId unique ∈ emitted) :
    (∀ task ∈ before.tasks, task.id ≠ taskId) ∧ ∃ task ∈ after.tasks, task.id = taskId := by
  cases change with
  | create active named fresh =>
    cases List.mem_singleton.mp created
    exact ⟨fresh,_,List.mem_append_right _ (List.mem_singleton.mpr rfl),rfl⟩
  | quiet | claim | leave | cancelPending | cancelRunning | amend => simp at created

theorem changeUnique {call before after emitted} (change : Change call before after emitted)
    (unique : UniqueBy (·.id) before.tasks) : UniqueBy (·.id) after.tasks := by
  rcases changeRows change with ⟨req,_,_,rows,fresh,_⟩ | ⟨sel,set,rows,evolves⟩ <;> rw [rows]
  · exact insertUnique fresh unique
  · exact updateUnique (fun row member hit => (evolves row member hit).id) unique

end McpMemory.Tasks
