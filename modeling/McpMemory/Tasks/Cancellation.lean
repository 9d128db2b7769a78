import Mathlib.Data.List.Induction
import McpMemory.Tasks.Fencing

/-! What becomes of an accepted cancellation. `request_cancel` on a running task
sets a flag; the worker reads it in one step and finishes, fails or retires the
task in a later one. `fail` with retries left and `retry_running_task` put the task
back to pending and clear the flag without looking at it. -/
namespace McpMemory.Tasks
open Interleave Table

/- The task still runs under its flag, or is over. -/
def Held (task : TaskRecord) : Prop :=
  task.status = .running ∧ task.cancellationRequestedAt.isSome ∨ task.terminal

/- The next step of this call puts no flagged task of this id back to pending. -/
def CallHonours (taskId : String) (tables : Tables) (call : Call) : Prop :=
  match call.active with
  | .leaving d id epoch _ row => id = taskId → d.status row = .pending →
      ∀ task ∈ tables.tasks, runningTask taskId epoch task → task.cancellationRequestedAt = none
  | _ => True

instance (taskId tables call) : Decidable (CallHonours taskId tables call) := by
  unfold CallHonours; split <;> infer_instance

def HonoursFlag (taskId : String) (w : World Call Tables Emitted) : Event Op → Prop
  | .start _ => True
  | .advance index => ∀ call ∈ w.calls[index]?, CallHonours taskId w.store call

instance (taskId w) : (event : Event Op) → Decidable (HonoursFlag taskId w event)
  | .start _ => .isTrue trivial
  | .advance index => inferInstanceAs (Decidable (∀ call ∈ w.calls[index]?, CallHonours taskId w.store call))

def neverClaims (taskId : String) (trace : List Emitted) : Prop :=
  ∀ before claimed now, .claimed before claimed now ∈ trace → claimed.id ≠ taskId

/- From this world on the task is never pending and never claimed, and the first
status it changes to is a terminal one. -/
def StaysCancelled (taskId : String) (w : World Call Tables Emitted) (later : Schedule) : Prop :=
  ∀ first rest, later = first ++ rest →
    (∀ task ∈ (queue.run w first).store.tasks, task.id = taskId → Held task) ∧
    ∃ new, (queue.run w first).trace = new ++ w.trace ∧ neverClaims taskId new

theorem departureTerminal {d : Departure} {row} (other : d.status row ≠ .pending) :
    (d.status row).opened = false := by
  have running := departureLeaves d row
  cases status : d.status row <;> simp_all [Status.opened]

theorem heldNotPending {task} (held : Held task) : task.status ≠ .pending := by
  rintro pending
  rcases held with ⟨running,_⟩ | terminal
  · rw [pending] at running; cases running
  · simp [TaskRecord.terminal,pending,Status.opened] at terminal

theorem changeHeld {call before after emitted} (change : Change call before after emitted)
    (unique : UniqueBy (·.id) before.tasks) {task} (member : task ∈ before.tasks) (held : Held task)
    (honours : CallHonours task.id before call) :
    (∃ later ∈ after.tasks, later.id = task.id ∧ Held later) ∧ neverClaims task.id emitted := by
  have kept {sel : TaskRecord → Bool} {set : TaskRecord → TaskRecord}
      (back : sel task → (set task).id = task.id ∧ Held (set task)) :
      ∃ later ∈ update sel set before.tasks, later.id = task.id ∧ Held later := by
    refine ⟨_,memUpdate.mpr ⟨task,member,rfl⟩,?_⟩
    split
    · rename_i hit; exact back hit
    · exact ⟨rfl,held⟩
  have silent {event : Emitted} (other : ∀ b c n, event ≠ .claimed b c n) :
      neverClaims task.id [event] := by
    intro b c n logged
    exact absurd (List.mem_singleton.mp logged).symm (other b c n)
  cases change with
  | quiet => exact ⟨⟨task,member,rfl,held⟩,by simp [neverClaims]⟩
  | create => exact ⟨⟨task,List.mem_append_left _ member,rfl,held⟩,silent (by simp)⟩
  | @claim now workspace row claimed _ present ready found =>
    simp only [claimable,Bool.and_eq_true,beq_iff_eq] at ready
    have pending := ready.1.1.1
    refine ⟨kept fun hit => absurd (pendingSource.mp hit).2 (heldNotPending held),?_⟩
    intro b c n logged same
    simp only [List.mem_singleton,Emitted.claimed.injEq] at logged
    obtain ⟨rfl,rfl,rfl⟩ := logged
    rw [claimedRow unique present pending found] at same
    cases equalOfKey unique present member same
    exact heldNotPending held pending
  | @leave d taskId epoch now row current active found =>
    refine ⟨kept fun hit => ⟨by simp,.inr ?_⟩,silent (by simp)⟩
    obtain ⟨named,running,_⟩ := runningTaskSource.mp hit
    rw [TaskRecord.terminal,departureStatus]
    refine departureTerminal fun pending => ?_
    have unflagged : task.cancellationRequestedAt = none := by
      simp only [CallHonours,active] at honours
      exact honours named.symm pending task member (named ▸ hit)
    rcases held with ⟨_,flagged⟩ | terminal
    · simp [unflagged] at flagged
    · simp [TaskRecord.terminal,running,Status.opened] at terminal
  | cancelPending =>
    exact ⟨kept fun hit => absurd (pendingSource.mp hit).2 (heldNotPending held),silent (by simp)⟩
  | cancelRunning =>
    exact ⟨kept fun hit => ⟨rfl,.inl ⟨(runningTaskSource.mp hit).2.1,rfl⟩⟩,silent (by simp)⟩
  | amend same =>
    refine ⟨kept fun _ => ⟨(same task).id,?_⟩,by simp [neverClaims]⟩
    simpa only [Held,TaskRecord.terminal,(same task).status,(same task).flag] using held

/- What the induction over a run carries: the rows stay keyed by their id, the task
is held, and no claim of it was logged since. -/
structure Since (taskId : String) (start w : World Call Tables Emitted) : Prop where
  unique : UniqueBy (·.id) w.store.tasks
  held : ∃ task ∈ w.store.tasks, task.id = taskId ∧ Held task
  silent : ∃ new, w.trace = new ++ start.trace ∧ neverClaims taskId new

theorem nextSince {taskId start w event} (honours : HonoursFlag taskId w event)
    (since : Since taskId start w) : Since taskId start (queue.next w event) := by
  cases event with
  | start op => exact ⟨since.unique,since.held,since.silent⟩
  | advance index =>
    cases found : w.calls[index]? with
    | none => rw [nextIdle found]; exact since
    | some call =>
      rw [nextAdvance found]
      have change := stepChange call w.store
      obtain ⟨task,member,rfl,held⟩ := since.held
      obtain ⟨⟨later,present,same,still⟩,quiet⟩ :=
        changeHeld change since.unique member held (honours call found)
      obtain ⟨new,shape,silent⟩ := since.silent
      refine ⟨changeUnique change since.unique,⟨later,present,same,still⟩,
        ⟨(step call w.store).2.2 ++ new,by simp [shape,queue],?_⟩⟩
      intro before claimed now logged
      rcases List.mem_append.mp logged with fresh | old
      · exact quiet before claimed now fresh
      · exact silent before claimed now old

theorem honouredStays {taskId w later} (meets : Meets queue (HonoursFlag taskId) w later)
    (unique : UniqueBy (·.id) w.store.tasks)
    (held : ∃ task ∈ w.store.tasks, task.id = taskId ∧ Held task) : StaysCancelled taskId w later := by
  rintro first rest rfl
  have since := runMeets (fun _ _ => nextSince) (meetsAppend.mp meets).1
    ⟨unique,held,[],rfl,by simp [neverClaims]⟩
  refine ⟨?_,since.silent⟩
  intro task member same
  obtain ⟨other,present,named,held⟩ := since.held
  cases equalOfKey since.unique present member (named.trans same.symm)
  exact held

/- A write that ignores the flag is seen at once: the task is pending after it. -/
theorem dishonouredPending {taskId call tables} (ignores : ¬ CallHonours taskId tables call) :
    ∃ later ∈ (step call tables).2.1.tasks, later.id = taskId ∧ later.status = .pending := by
  obtain ⟨d,epoch,now,row,active,pending,task,member,hit⟩ : ∃ d epoch now row,
      call.active = .leaving d taskId epoch now row ∧ d.status row = .pending ∧
      ∃ task ∈ tables.tasks, runningTask taskId epoch task := by
    simp only [CallHonours] at ignores
    split at ignores
    · rename_i d id epoch now row active
      simp only [not_forall] at ignores
      obtain ⟨rfl,pending,task,member,hit,_⟩ := ignores
      exact ⟨d,epoch,now,row,active,pending,task,member,hit⟩
    · exact absurd trivial ignores
  have found : ∃ current, tables.tasks.find? (runningTask taskId epoch) = some current := by
    cases found : tables.tasks.find? (runningTask taskId epoch) with
    | some current => exact ⟨current,rfl⟩
    | none => exact absurd hit (by simp [findNone found task member])
  obtain ⟨current,found⟩ := found
  have written : (step call tables).2.1.tasks =
      update (runningTask taskId epoch) (d.set now row) tables.tasks := by
    clear ignores
    induction call with
    | leaving => cases active; simp only [step,leaveRunning,found]
    | recovering r env inner todo recovered ih => exact ih active
    | _ => cases active
  rw [written]
  refine ⟨_,memUpdate.mpr ⟨task,member,rfl⟩,?_⟩
  rw [if_pos hit]
  exact ⟨by simp [(runningTaskSource.mp hit).1],by rw [departureStatus,pending]⟩

theorem staysHonoured {taskId w later} (stays : StaysCancelled taskId w later) :
    Meets queue (HonoursFlag taskId) w later := by
  induction later using List.reverseRecOn with
  | nil => trivial
  | append_singleton earlier event ih =>
    refine meetsAppend.mpr ⟨ih ?_,?_,trivial⟩
    · rintro first rest rfl
      exact stays first (rest ++ [event]) (by simp)
    · cases event with
      | start op => trivial
      | advance index =>
        intro call found
        by_contra ignores
        obtain ⟨task,member,same,pending⟩ := dishonouredPending ignores
        refine heldNotPending ((stays (earlier ++ [.advance index]) [] (by simp)).1 task ?_ same) pending
        have shape : queue.run w (earlier ++ [.advance index]) = _ :=
          runAppend.trans (nextAdvance found)
        rw [shape]
        exact member

/- Where a running task has just taken a cancellation. -/
theorem acceptedHeld {taskId call before after} (change : Change call before after [.cancelRequested taskId]) :
    ∃ task ∈ after.tasks, task.id = taskId ∧ Held task := by
  cases change with
  | @cancelRunning req current found =>
    obtain ⟨member,selected⟩ := findSome found
    obtain ⟨named,running,_⟩ := runningTaskSource.mp selected
    exact ⟨cancelRunningSet req current,memUpdate.mpr ⟨current,member,by simp [selected]⟩,named,
      .inl ⟨running,rfl⟩⟩

/- In every run in which a step accepts a cancellation of a running task, the task
never becomes pending and is never claimed again exactly when no later step writes
a `fail` with retries left, or a `retry_running_task`, over the flag. -/
theorem cancellationKept (events later : Schedule) (taskId : String) (index : Nat)
    (accepted : (reached (events ++ [.advance index])).trace =
      .cancelRequested taskId :: (reached events).trace) :
    Meets queue (HonoursFlag taskId) (reached (events ++ [.advance index])) later ↔
      StaysCancelled taskId (reached (events ++ [.advance index])) later := by
  refine ⟨fun meets => ?_,staysHonoured⟩
  refine honouredStays meets (reachedLane _).unique ?_
  have one : reached (events ++ [.advance index]) = queue.next (reached events) (.advance index) := by
    rw [reached,runAppend]; rfl
  rw [one] at accepted ⊢
  cases found : (reached events).calls[index]? with
  | none => simp [nextIdle found] at accepted
  | some call =>
    rw [nextAdvance found] at accepted ⊢
    have emitted : (step call (reached events).store).2.2 = [.cancelRequested taskId] :=
      List.append_cancel_right accepted
    exact acceptedHeld (emitted ▸ stepChange call (reached events).store)

/- A worker has claimed a task whose handler raised, and has read the flag as not set
when a cancellation of the running task is accepted. -/
def cancelBetween : Schedule :=
  [.start (.enqueue (sampleRequest "system1-ingest" "t" 3 0)),.advance 0,
    .start (.claimNext 1 .any),.advance 1,
    .start (.settle (claimSet 1 (sampleRequest "system1-ingest" "t" 3 0).row) (.raised "provider error" 0) 2),
    .advance 2,.advance 2,
    .start (.requestCancel ⟨"t","operator","stop",3⟩),.advance 3]

/- An operator's tool then marks the task cancelled: no step ignores the flag. -/
theorem cancellationKeptSample : StaysCancelled "t" (reached (cancelBetween ++ [.advance 3]))
    [.start (.leave .finalizeCancellation "t" (some 1) 5),.advance 4,.advance 4] := by
  exact (cancellationKept cancelBetween _ "t" 3 rfl).mp (by decide)

/- The worker's write, and a second worker. -/
def settleAfterCancel : Schedule := [.advance 2,.start (.claimNext 4 .any),.advance 4]

/- The cancelled task is pending again, without its flag, and is claimed a second
time. -/
theorem cancellationLost :
    (reached (cancelBetween ++ [.advance 3])).store.tasks.map
      (fun task => (task.status,task.cancellationRequestedAt)) = [(.running,some 3)] ∧
    (reached (cancelBetween ++ [.advance 3] ++ [.advance 2])).store.tasks.map
      (fun task => (task.status,task.cancellationRequestedAt)) = [(.pending,none)] ∧
    (reached (cancelBetween ++ [.advance 3] ++ settleAfterCancel)).store.tasks.map
      (fun task => (task.status,task.executionEpoch)) = [(.running,2)] := by
  decide

end McpMemory.Tasks
