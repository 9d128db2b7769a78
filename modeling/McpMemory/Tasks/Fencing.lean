import McpMemory.Tasks.Ledger

/-! Calls that arrive late. A departure is fenced in both of its steps by the same
predicate on the running row, so one that names a past epoch, or a task that does
not run, ends in an error with both tables as they were; so does a cancellation of
a task that is gone or over. A pending task has no attempt to fence: it is
cancelled at once. -/
namespace McpMemory.Tasks
open Interleave Table

theorem leaveRejected {call : Call} {d taskId epoch now tables}
    (active : call.active = .leave d taskId epoch now ∨
      ∃ row, call.active = .leaving d taskId epoch now row)
    (missing : ∀ task ∈ tables.tasks, ¬ runningTask taskId epoch task) :
    step call tables = (.answered (.error (runningTaskMismatchError taskId epoch)),tables,[]) := by
  have absent : tables.tasks.find? (runningTask taskId epoch) = none := by simpa using missing
  induction call with
  | leave =>
    rcases active with same | ⟨row,same⟩ <;> cases same
    simp [step,readRunning,getRunningTaskRow,absent]
  | leaving =>
    rcases active with same | ⟨row,same⟩ <;> cases same
    simp [step,leaveRunning,absent,reject]
  | recovering r env current todo recovered ih => simp only [step,ih active]; rfl
  | _ => rcases active with same | ⟨row,same⟩ <;> cases same

theorem cancelRejected {call : Call} {req : CancelRequest} {tables}
    (active : call.active = .requestCancel req ∨ (∃ row, call.active = .cancelPending req row) ∨
      call.active = .cancelRunning req)
    (ended : ∀ task ∈ tables.tasks, task.id = req.taskId → task.terminal) :
    ∃ error, step call tables = (.answered (.error error),tables,[]) := by
  have notPending : tables.tasks.find? (pendingTask req.taskId) = none := by
    refine List.find?_eq_none.mpr fun task member hit => ?_
    obtain ⟨named,pending⟩ := pendingSource.mp hit
    have terminal := ended task member named
    simp [TaskRecord.terminal,Status.opened,pending] at terminal
  have notRunning : tables.tasks.find? (runningTask req.taskId none) = none := by
    refine List.find?_eq_none.mpr fun task member hit => ?_
    obtain ⟨named,running,_⟩ := runningTaskSource.mp hit
    have terminal := ended task member named
    simp [TaskRecord.terminal,Status.opened,running] at terminal
  induction call with
  | requestCancel =>
    rcases active with same | ⟨row,same⟩ | same <;> cases same
    cases found : findTask tables req.taskId with
    | none => exact ⟨_,by simp only [step,found]; rfl⟩
    | some row =>
      obtain ⟨member,named⟩ := findSome found
      have terminal := ended row member (by simpa using named)
      have closed : row.status ≠ .pending ∧ row.status ≠ .running := by
        constructor <;> intro open' <;> simp [TaskRecord.terminal,Status.opened,open'] at terminal
      exact ⟨_,by simp only [step,found,if_neg closed.1,if_neg closed.2]; rfl⟩
  | cancelPending =>
    rcases active with same | ⟨row,same⟩ | same <;> cases same
    exact ⟨_,by simp only [step,Tasks.cancelPending,notPending]; rfl⟩
  | cancelRunning =>
    rcases active with same | ⟨row,same⟩ | same <;> cases same
    exact ⟨_,by simp only [step,Tasks.cancelRunning,notRunning]; rfl⟩
  | recovering r env current todo recovered ih =>
    obtain ⟨error,same⟩ := ih active
    exact ⟨error,by simp only [step,same]; rfl⟩
  | _ => rcases active with same | ⟨row,same⟩ | same <;> cases same

def sampleRequest (taskName taskId : String) (maxRetries now : Seconds) : EnqueueRequest :=
  ⟨taskName,[],none,100,maxRetries,none,some taskId,"drawn",now⟩

/- One attempt is claimed and retried; then a cancellation reads the pending row. -/
def cancelAfterRetry : Schedule :=
  [.start (.enqueue (sampleRequest "system1-ingest" "t" 3 0)),.advance 0,
    .start (.claimNext 1 .any),.advance 1,
    .start (.leave (.retryRunningTask "busy") "t" (some 1) 2),.advance 2,.advance 2,
    .start (.requestCancel ⟨"t","operator","stop",3⟩),.advance 3]

end McpMemory.Tasks
