import McpMemory.Tasks.Cleanup

/-! The run ledger. `task_runs` has no epoch column, so the epoch that a run closes
is taken from the history: that of the row which the same transaction updated. A
task cancelled while it was pending gets a run that closes no attempt. -/
namespace McpMemory.Tasks
open Interleave Table

def Emitted.run : Emitted → Option TaskRunRecord
  | .recorded run _ => some run
  | .created _ _ | .claimed _ _ _ | .cancelRequested _ => none

def Emitted.closes (taskId : String) (epoch : Option Int) : Emitted → Bool
  | .recorded run closed => run.taskId == taskId && closed == epoch
  | .created _ _ | .claimed _ _ _ | .cancelRequested _ => false

def Emitted.claims (taskId : String) (epoch : Int) : Emitted → Bool
  | .claimed _ task _ => task.id == taskId && task.executionEpoch == epoch
  | .created _ _ | .recorded _ _ | .cancelRequested _ => false

theorem closesSource {taskId epoch event} : Emitted.closes taskId epoch event = true ↔
    ∃ run, event = .recorded run epoch ∧ run.taskId = taskId := by
  cases event <;> simp [Emitted.closes]
  constructor
  · rintro ⟨same,rfl⟩; exact ⟨rfl,same⟩
  · rintro ⟨rfl,same⟩; exact ⟨same,rfl⟩

@[simp] theorem departureRunTask (d : Departure) (now taskId row tables) :
    (d.run now taskId row tables).taskId = taskId := rfl

@[simp] theorem cancelledRunTask (req : CancelRequest) (row tables) :
    (cancelledRun req row tables).taskId = req.taskId := rfl

/- `closed`: an attempt with a run is over, so its epoch is behind a running task.
`cancelled`: a task cancelled while pending stays cancelled. -/
structure Ledger (tables : Tables) (trace : List Emitted) : Prop where
  lane : Lane tables trace
  rows : (trace.filterMap Emitted.run).reverse = tables.taskRuns
  once : ∀ taskId epoch, trace.countP (Emitted.closes taskId epoch) ≤ 1
  closed : ∀ run epoch, .recorded run (some epoch) ∈ trace →
    ∃ task ∈ tables.tasks, task.id = run.taskId ∧ epoch ≤ task.executionEpoch ∧
      (task.status = .running → epoch < task.executionEpoch)
  cancelled : ∀ run, .recorded run none ∈ trace →
    ∃ task ∈ tables.tasks, task.id = run.taskId ∧ task.status = .cancelled
  running : ∀ task ∈ tables.tasks, task.status = .running →
    ∃ event ∈ trace, event.claims task.id task.executionEpoch
  claimed : ∀ run epoch, .recorded run (some epoch) ∈ trace →
    ∃ event ∈ trace, event.claims run.taskId epoch

/- A row found running is the task's only row, so no run closes its epoch yet. -/
theorem runningUnclosed {tables trace task} (ledger : Ledger tables trace) (member : task ∈ tables.tasks)
    (running : task.status = .running) :
    trace.countP (Emitted.closes task.id (some task.executionEpoch)) = 0 := by
  refine List.countP_eq_zero.mpr fun event logged closes => ?_
  obtain ⟨run,rfl,same⟩ := closesSource.mp closes
  obtain ⟨other,present,named,_,behind⟩ := ledger.closed run _ logged
  cases equalOfKey ledger.lane.unique present member (named.trans same)
  exact absurd (behind running) (Int.lt_irrefl _)

theorem pendingUncancelled {tables trace task} (ledger : Ledger tables trace)
    (member : task ∈ tables.tasks) (pending : task.status = .pending) :
    trace.countP (Emitted.closes task.id none) = 0 := by
  refine List.countP_eq_zero.mpr fun event logged closes => ?_
  obtain ⟨run,rfl,same⟩ := closesSource.mp closes
  obtain ⟨other,present,named,cancelled⟩ := ledger.cancelled run logged
  cases equalOfKey ledger.lane.unique present member (named.trans same)
  rw [pending] at cancelled
  cases cancelled

/- One more run, for an attempt that has none yet. -/
theorem onceMore {trace : List Emitted} {run : TaskRunRecord} {epoch}
    (once : ∀ taskId epoch, trace.countP (Emitted.closes taskId epoch) ≤ 1)
    (none : trace.countP (Emitted.closes run.taskId epoch) = 0) (taskId other) :
    ([Emitted.recorded run epoch] ++ trace).countP (Emitted.closes taskId other) ≤ 1 := by
  rw [List.countP_append]
  by_cases same : run.taskId = taskId ∧ epoch = other
  · obtain ⟨rfl,rfl⟩ := same
    rw [none]
    exact List.countP_le_length
  · have missed : [Emitted.recorded run epoch].countP (Emitted.closes taskId other) = 0 := by
      refine List.countP_eq_zero.mpr fun event member closes => ?_
      obtain ⟨_,shape,named⟩ := closesSource.mp closes
      rw [List.mem_singleton.mp member] at shape
      cases shape
      exact same ⟨named,rfl⟩
    rw [missed]
    exact Nat.le_trans (Nat.le_of_eq (Nat.zero_add _)) (once taskId other)

theorem changeOnce {call before after emitted trace} (change : Change call before after emitted)
    (ledger : Ledger before trace) (taskId epoch) :
    (emitted ++ trace).countP (Emitted.closes taskId epoch) ≤ 1 := by
  cases change with
  | quiet | amend => exact ledger.once taskId epoch
  | create | claim | cancelRunning => simpa [List.countP_cons,Emitted.closes] using ledger.once taskId epoch
  | leave _ found =>
    obtain ⟨member,selected⟩ := findSome found
    obtain ⟨named,running,_⟩ := runningTaskSource.mp selected
    exact onceMore ledger.once (by simpa [named] using runningUnclosed ledger member running) taskId epoch
  | cancelPending found =>
    obtain ⟨member,selected⟩ := findSome found
    obtain ⟨named,pending⟩ := pendingSource.mp selected
    exact onceMore ledger.once (by simpa [named] using pendingUncancelled ledger member pending) taskId epoch

theorem changeLedgerRows {call before after emitted trace} (change : Change call before after emitted)
    (rows : (trace.filterMap Emitted.run).reverse = before.taskRuns) :
    ((emitted ++ trace).filterMap Emitted.run).reverse = after.taskRuns := by
  cases change <;> simp [Emitted.run,List.filterMap_cons,rows]

/- An attempt closed by this step: its row has just left `running`. -/
theorem leaveClosed {call before after run epoch trace}
    (change : Change call before after [.recorded run (some epoch)]) (ledger : Ledger before trace) :
    (∃ task ∈ after.tasks, task.id = run.taskId ∧ epoch ≤ task.executionEpoch ∧
      (task.status = .running → epoch < task.executionEpoch)) ∧
    ∃ event ∈ trace, event.claims run.taskId epoch := by
  cases change with
  | @leave d taskId _ now row current _ found =>
    obtain ⟨member,selected⟩ := findSome found
    obtain ⟨named,running,_⟩ := runningTaskSource.mp selected
    refine ⟨⟨d.set now row current,memUpdate.mpr ⟨current,member,by simp [selected]⟩,?_,?_,?_⟩,?_⟩
    · simp [named]
    · simp
    · intro still
      exact absurd ((departureStatus d now row current).symm.trans still) (departureLeaves d row)
    · obtain ⟨event,logged,claims⟩ := ledger.running current member running
      exact ⟨event,logged,by simpa [named] using claims⟩

theorem cancelCancelled {call before after run}
    (change : Change call before after [.recorded run none]) :
    ∃ task ∈ after.tasks, task.id = run.taskId ∧ task.status = .cancelled := by
  cases change with
  | @cancelPending req row current found =>
    obtain ⟨member,selected⟩ := findSome found
    exact ⟨cancelPendingSet req current,memUpdate.mpr ⟨current,member,by simp [selected]⟩,
      (pendingSource.mp selected).1,rfl⟩

theorem changeRunning {call before after emitted trace} (change : Change call before after emitted)
    (ledger : Ledger before trace) {task} (member : task ∈ after.tasks)
    (running : task.status = .running) :
    ∃ event ∈ emitted ++ trace, event.claims task.id task.executionEpoch := by
  rcases changeOrigin change member with ⟨row,old,evolves⟩ | ⟨req,unique,_,rfl,_⟩
  · rcases evolves.running running with ⟨was,same⟩ | more
    · obtain ⟨event,logged,claims⟩ := ledger.running row old was
      exact ⟨event,List.mem_append_right _ logged,by rw [evolves.id,same]; exact claims⟩
    · -- the epoch grew, so this step claimed the row
      have unchanged {sel : TaskRecord → Bool} {set : TaskRecord → TaskRecord}
          (shape : after.tasks = update sel set before.tasks)
          (kept : ∀ row, (set row).id = row.id ∧ (set row).executionEpoch = row.executionEpoch) : False := by
        rw [shape] at member
        obtain ⟨source,present,rfl⟩ := memUpdate.mp member
        have same : (if sel source then set source else source).id = source.id ∧
            (if sel source then set source else source).executionEpoch = source.executionEpoch := by
          split
          · exact kept source
          · exact ⟨rfl,rfl⟩
        cases equalOfKey ledger.lane.unique present old (same.1.symm.trans evolves.id)
        omega
      cases change with
      | quiet => cases equalOfKey ledger.lane.unique member old evolves.id; omega
      | create =>
        rcases List.mem_append.mp member with there | new
        · cases equalOfKey ledger.lane.unique there old evolves.id; omega
        · rw [List.mem_singleton.mp new] at running; cases running
      | @claim now workspace claimed result _ present ready found =>
        simp only [claimable,Bool.and_eq_true,beq_iff_eq] at ready
        cases claimedRow ledger.lane.unique present ready.1.1.1 found
        obtain ⟨source,there,rfl⟩ := memUpdate.mp member
        split at more
        · rename_i hit
          cases equalOfKey ledger.lane.unique there present (pendingSource.mp hit).1
          exact ⟨_,List.mem_append_left _ (List.mem_singleton.mpr rfl),by simp [hit,Emitted.claims]⟩
        · rename_i miss
          have same : source.id = row.id := by simpa [miss] using evolves.id
          cases equalOfKey ledger.lane.unique there old same
          omega
      | leave => exact (unchanged rfl fun row => by simp).elim
      | cancelPending | cancelRunning => exact (unchanged rfl fun row => ⟨rfl,rfl⟩).elim
      | amend same => exact (unchanged rfl fun row => ⟨(same row).id,(same row).executionEpoch⟩).elim
  · cases running

theorem changeLedger {call before after emitted trace} (change : Change call before after emitted)
    (ledger : Ledger before trace) : Ledger after (emitted ++ trace) where
  lane := changeLane change ledger.lane
  rows := changeLedgerRows change ledger.rows
  once := changeOnce change ledger
  running := fun _ => changeRunning change ledger
  closed := by
    intro run epoch member
    rcases List.mem_append.mp member with new | old
    · have only : emitted = [.recorded run (some epoch)] := by cases change <;> simp_all
      exact (leaveClosed (only ▸ change) ledger).1
    · obtain ⟨task,present,same,le,behind⟩ := ledger.closed run epoch old
      obtain ⟨later,there,evolves⟩ := changeEvolves change present
      refine ⟨later,there,evolves.id.trans same,Int.le_trans le evolves.epoch,?_⟩
      intro running
      rcases evolves.running running with ⟨was,same⟩ | more
      · exact same ▸ behind was
      · exact Int.lt_of_le_of_lt le more
  cancelled := by
    intro run member
    rcases List.mem_append.mp member with new | old
    · have only : emitted = [.recorded run none] := by cases change <;> simp_all
      exact cancelCancelled (only ▸ change)
    · obtain ⟨task,present,same,cancelled⟩ := ledger.cancelled run old
      obtain ⟨later,there,evolves⟩ := changeEvolves change present
      have terminal : task.terminal := by simp [TaskRecord.terminal,cancelled,Status.opened]
      exact ⟨later,there,evolves.id.trans same,(evolves.terminal terminal).trans cancelled⟩
  claimed := by
    intro run epoch member
    rcases List.mem_append.mp member with new | old
    · have only : emitted = [.recorded run (some epoch)] := by cases change <;> simp_all
      obtain ⟨event,logged,claims⟩ := (leaveClosed (only ▸ change) ledger).2
      exact ⟨event,List.mem_append_right _ logged,claims⟩
    · obtain ⟨event,logged,claims⟩ := ledger.claimed run epoch old
      exact ⟨event,List.mem_append_right _ logged,claims⟩

theorem reachedLedger (events : Schedule) : Ledger (reached events).store (reached events).trace :=
  runKeeps (fun call store _ ledger => changeLedger (stepChange call store) ledger) events
    ⟨⟨List.nodup_nil,by simp [empty],by simp⟩,rfl,by simp,by simp,by simp,by simp [empty],by simp⟩

end McpMemory.Tasks
