import Mathlib.Data.List.Sort
import McpMemory.Lib.Interleave
import McpMemory.Lib.Text
import McpMemory.Tasks.Record

/-! The operations of `SQLiteTaskQueue`, each as the statements it runs. A read in
autocommit mode is one step and the write transaction that follows is another, so
the row a call acts on may be stale by the time it writes. `claim_next` and the
running-task data mutators are one BEGIN IMMEDIATE transaction. A statement that
waits for the write lock and gives up changes nothing and is not a step. -/
namespace McpMemory.Tasks
open Table

structure EnqueueRequest where
  taskName : String
  data : Json.Object
  workspaceId : Option String
  priority : Int
  maxRetries : Int
  availableAt : Option Seconds
  taskId : Option String
  drawn : String
  now : Seconds
  deriving Repr

/- `task_id or str(uuid4())`; `drawn` is what uuid4 yields. -/
def EnqueueRequest.identifier (req : EnqueueRequest) : String :=
  match req.taskId with
  | none => req.drawn
  | some id => if id = "" then req.drawn else id

def EnqueueRequest.row (req : EnqueueRequest) : TaskRecord where
  id := req.identifier
  taskName := Text.strip req.taskName
  workspaceId := req.workspaceId
  data := req.data
  status := .pending
  executionEpoch := 0
  priority := req.priority
  retriesCount := 0
  maxRetries := req.maxRetries
  createdAt := req.now
  updatedAt := req.now
  availableAt := req.availableAt.getD req.now
  claimedAt := none
  startedAt := none
  completedAt := none
  lastError := none
  subprocessPid := none
  activeRequestId := none
  cancellationRequestedAt := none
  cancelledAt := none
  cancellationReason := none
  cancelledBy := none

def enqueue (req : EnqueueRequest) (tables : Tables) : Except QueueError Tables :=
  if Text.strip req.taskName = "" then .error (.valueError "task_name is required")
  else if tables.tasks.any (·.id == req.identifier) then .error .integrityError
  else .ok { tables with tasks := tables.tasks ++ [req.row] }

/- `find_open_task` compares the name as it is given. -/
def findOpenTask (taskName : String) (workspaceId : Option String) (tables : Tables) :
    Option TaskRecord :=
  ((tables.tasks.filter fun task => task.taskName == taskName && task.workspaceId == workspaceId &&
    task.status.opened).insertionSort fun a b => a.createdAt ≤ b.createdAt).head?

inductive WorkspaceFilter where
  | any
  | unscoped
  | only (workspaceId : String)
  deriving DecidableEq, Repr

def WorkspaceFilter.selects : WorkspaceFilter → Option String → Bool
  | .any,_ => true
  | .unscoped,workspaceId => workspaceId.isNone
  | .only wanted,workspaceId => workspaceId == some wanted

def claimable (now : Seconds) (workspace : WorkspaceFilter) (tables : Tables) (task : TaskRecord) :
    Bool :=
  task.status == .pending && task.availableAt ≤ now && workspace.selects task.workspaceId &&
    (!backgroundCleanupTaskNames.contains task.taskName || !tables.tasks.any (·.runningCleanup))

def claimOrder (a b : TaskRecord) : Prop :=
  a.priority < b.priority ∨ a.priority = b.priority ∧ a.createdAt ≤ b.createdAt

instance : DecidableRel claimOrder := fun _ _ => by unfold claimOrder; infer_instance

def claimSet (now : Seconds) (task : TaskRecord) : TaskRecord := { task with
  status := .running
  executionEpoch := task.executionEpoch + 1
  updatedAt := now
  claimedAt := some now
  startedAt := some (task.startedAt.getD now)
  lastError := none }

def nextClaimable (now : Seconds) (workspace : WorkspaceFilter) (tables : Tables) :
    Option TaskRecord :=
  ((tables.tasks.filter (claimable now workspace tables)).insertionSort claimOrder).head?

def pendingTask (taskId : String) (task : TaskRecord) : Bool :=
  task.id == taskId && task.status == .pending

/- The row before and after the claim, and the tables after it. -/
def claimNext (now : Seconds) (workspace : WorkspaceFilter) (tables : Tables) :
    Option (TaskRecord × TaskRecord) × Tables :=
  match nextClaimable now workspace tables with
  | none => (none,tables)
  | some row =>
    if tables.tasks.countP (pendingTask row.id) = 1 then
      let after := { tables with tasks := update (pendingTask row.id) (claimSet now) tables.tasks }
      ((findTask after row.id).map fun claimed => (row,claimed),after)
    else (none,tables)

/- `complete`, `fail`, `fail_permanently`, `retry_running_task` and
`finalize_cancellation` share one shape: read the running row, then in one
transaction update it where it still runs under the epoch and insert a run. -/

inductive Departure where
  | complete (result : Json.Object)
  | fail (error : String) (retryDelaySeconds : Seconds)
  | failPermanently (error : String)
  | retryRunningTask (error : String)
  | finalizeCancellation
  deriving Repr

def completeSet (now : Seconds) (task : TaskRecord) : TaskRecord := { task with
  status := .completed
  updatedAt := now
  completedAt := some now
  lastError := none
  subprocessPid := none
  activeRequestId := none }

def failTerminal (row : TaskRecord) : Bool := row.retriesCount + 1 ≥ row.maxRetries

def failSet (error : String) (retryDelaySeconds now : Seconds) (row task : TaskRecord) :
    TaskRecord := { task with
  status := if failTerminal row then .failed else .pending
  retriesCount := row.retriesCount + 1
  updatedAt := now
  availableAt := if failTerminal row then now else now + retryDelaySeconds
  claimedAt := none
  completedAt := if failTerminal row then some now else none
  lastError := some error
  subprocessPid := none
  activeRequestId := none
  cancellationRequestedAt := none
  cancelledAt := none
  cancellationReason := none
  cancelledBy := none }

def failPermanentlySet (error : String) (now : Seconds) (task : TaskRecord) : TaskRecord := { task with
  status := .failed
  retriesCount := task.maxRetries
  updatedAt := now
  availableAt := now
  claimedAt := none
  completedAt := some now
  lastError := some error
  subprocessPid := none
  activeRequestId := none }

def retryRunningTaskSet (error : String) (now : Seconds) (task : TaskRecord) : TaskRecord := { task with
  status := .pending
  updatedAt := now
  availableAt := now
  claimedAt := none
  completedAt := none
  lastError := some error
  subprocessPid := none
  activeRequestId := none
  cancellationRequestedAt := none
  cancelledAt := none
  cancellationReason := none
  cancelledBy := none }

def cancellationReason (row : TaskRecord) : String :=
  match row.cancellationReason with
  | none => "cancelled"
  | some reason => if reason = "" then "cancelled" else reason

def finalizeCancellationSet (now : Seconds) (row task : TaskRecord) : TaskRecord := { task with
  status := .cancelled
  updatedAt := now
  completedAt := some now
  cancelledAt := some now
  lastError := some (cancellationReason row)
  subprocessPid := none
  activeRequestId := none }

def Departure.set (d : Departure) (now : Seconds) (row : TaskRecord) : TaskRecord → TaskRecord :=
  match d with
  | .complete _ => completeSet now
  | .fail error delay => failSet error delay now row
  | .failPermanently error => failPermanentlySet error now
  | .retryRunningTask error => retryRunningTaskSet error now
  | .finalizeCancellation => finalizeCancellationSet now row

/- The status it leaves, which the stale row decides for `fail`. -/
def Departure.status (d : Departure) (row : TaskRecord) : Status :=
  match d with
  | .complete _ => .completed
  | .fail _ _ => if failTerminal row then .failed else .pending
  | .failPermanently _ => .failed
  | .retryRunningTask _ => .pending
  | .finalizeCancellation => .cancelled

@[simp] theorem departureId (d : Departure) (now row task) : (d.set now row task).id = task.id := by
  cases d <;> rfl

@[simp] theorem departureName (d : Departure) (now row task) :
    (d.set now row task).taskName = task.taskName := by cases d <;> rfl

@[simp] theorem departureWorkspace (d : Departure) (now row task) :
    (d.set now row task).workspaceId = task.workspaceId := by cases d <;> rfl

@[simp] theorem departureEpoch (d : Departure) (now row task) :
    (d.set now row task).executionEpoch = task.executionEpoch := by cases d <;> rfl

@[simp] theorem departureStatus (d : Departure) (now row task) :
    (d.set now row task).status = d.status row := by cases d <;> rfl

theorem departureLeaves (d : Departure) (row) : d.status row ≠ .running := by
  cases d with
  | fail => simp only [Departure.status]; split <;> simp
  | complete | failPermanently | retryRunningTask | finalizeCancellation => simp [Departure.status]

def Departure.runStatus (d : Departure) (row : TaskRecord) : RunStatus :=
  match d with
  | .complete _ => .completed
  | .fail _ _ => if failTerminal row then .failed else .retry
  | .failPermanently _ => .failed
  | .retryRunningTask _ => .retry
  | .finalizeCancellation => .cancelled

def optionJson : Option String → Json
  | none => .null
  | some text => .str text

def Departure.result (d : Departure) (row : TaskRecord) : Json.Object :=
  match d with
  | .complete result => result
  | .fail _ _ | .failPermanently _ => []
  | .retryRunningTask error => [("retry_reason",.str error)]
  | .finalizeCancellation =>
    [("cancelled_by",optionJson row.cancelledBy),("reason",.str (cancellationReason row))]

def Departure.errorText (d : Departure) (row : TaskRecord) : Option String :=
  match d with
  | .complete _ => none
  | .fail error _ | .failPermanently error | .retryRunningTask error => some error
  | .finalizeCancellation => some (cancellationReason row)

/- `_insert_task_run` -/
def newTaskRun (tables : Tables) (row : TaskRecord) (taskId : String) (status : RunStatus)
    (startedAt completedAt : Seconds) (result : Json.Object) (errorText : Option String) :
    TaskRunRecord where
  id := tables.taskRuns.length
  taskId := taskId
  taskName := row.taskName
  workspaceId := row.workspaceId
  status := status
  startedAt := startedAt
  completedAt := completedAt
  durationSeconds := max (completedAt - startedAt) 0
  result := result
  errorText := errorText

def Departure.run (d : Departure) (now : Seconds) (taskId : String) (row : TaskRecord)
    (tables : Tables) : TaskRunRecord :=
  newTaskRun tables row taskId (d.runStatus row) (row.claimedAt.getD (row.startedAt.getD now)) now
    (d.result row) (d.errorText row)

/- The write transaction; it also names the epoch of the row that it updated. -/
def leaveRunning (d : Departure) (taskId : String) (executionEpoch : Option Int) (now : Seconds)
    (row : TaskRecord) (tables : Tables) : Except QueueError (Int × TaskRunRecord × Tables) :=
  match tables.tasks.find? (runningTask taskId executionEpoch) with
  | none => .error (runningTaskMismatchError taskId executionEpoch)
  | some current =>
    let run := d.run now taskId row tables
    .ok (current.executionEpoch,run,
      ⟨update (runningTask taskId executionEpoch) (d.set now row) tables.tasks,tables.taskRuns ++ [run]⟩)

/- `set_running_process`, `clear_running_process` and `touch_running_task`. -/

inductive Touch where
  | setRunningProcess (subprocessPid : Option Int) (requestId : Option String)
  | touchRunningTask
  deriving DecidableEq, Repr

def clearRunningProcess : Touch := .setRunningProcess none none

def Touch.set (t : Touch) (now : Seconds) (task : TaskRecord) : TaskRecord :=
  match t with
  | .setRunningProcess pid requestId =>
    { task with subprocessPid := pid, activeRequestId := requestId, updatedAt := now }
  | .touchRunningTask => { task with updatedAt := now }

def touchRunning (t : Touch) (taskId : String) (executionEpoch : Option Int) (now : Seconds)
    (tables : Tables) : Except QueueError Tables :=
  match tables.tasks.find? (runningTask taskId executionEpoch) with
  | none => .error (runningTaskMismatchError taskId executionEpoch)
  | some _ => .ok { tables with
      tasks := update (runningTask taskId executionEpoch) (t.set now) tables.tasks }

structure CancelRequest where
  taskId : String
  cancelledBy : String
  reason : String
  now : Seconds
  deriving DecidableEq, Repr

def cancelPendingSet (req : CancelRequest) (task : TaskRecord) : TaskRecord := { task with
  status := .cancelled
  updatedAt := req.now
  completedAt := some req.now
  cancelledAt := some req.now
  cancellationReason := some req.reason
  cancelledBy := some req.cancelledBy
  lastError := some req.reason
  subprocessPid := none
  activeRequestId := none }

def cancelledRun (req : CancelRequest) (row : TaskRecord) (tables : Tables) : TaskRunRecord :=
  newTaskRun tables row req.taskId .cancelled req.now req.now [] (some req.reason)

def cancelPending (req : CancelRequest) (row : TaskRecord) (tables : Tables) :
    Except QueueError (TaskRunRecord × Tables) :=
  match tables.tasks.find? (pendingTask req.taskId) with
  | none => .error (.valueError ("Task " ++ req.taskId ++ " could not be cancelled"))
  | some _ =>
    let run := cancelledRun req row tables
    .ok (run,⟨update (pendingTask req.taskId) (cancelPendingSet req) tables.tasks,
      tables.taskRuns ++ [run]⟩)

def cancelRunningSet (req : CancelRequest) (task : TaskRecord) : TaskRecord := { task with
  updatedAt := req.now
  cancellationRequestedAt := some (task.cancellationRequestedAt.getD req.now)
  cancellationReason := some req.reason
  cancelledBy := some req.cancelledBy }

def cancelRunning (req : CancelRequest) (tables : Tables) : Except QueueError Tables :=
  match tables.tasks.find? (runningTask req.taskId none) with
  | none => .error (.valueError ("Task " ++ req.taskId ++ " could not be marked for cancellation"))
  | some _ => .ok { tables with
      tasks := update (runningTask req.taskId none) (cancelRunningSet req) tables.tasks }

def isCancellationRequested (taskId : String) (tables : Tables) : Bool :=
  match findTask tables taskId with
  | none => false
  | some row => row.cancellationRequestedAt.isSome

structure PendingUpdate where
  taskId : String
  data : Option Json.Object
  availableAt : Option Seconds
  priority : Option Int
  now : Seconds
  deriving Repr

/- `row` is the row as `update_pending_task` read it. -/
def updatePendingSet (req : PendingUpdate) (row task : TaskRecord) : TaskRecord := { task with
  data := req.data.getD row.data
  availableAt := req.availableAt.getD row.availableAt
  priority := req.priority.getD row.priority
  updatedAt := req.now }

def notPending (taskId : String) : QueueError := .valueError ("Task " ++ taskId ++ " is not pending")

def updatePendingTask (req : PendingUpdate) (row : TaskRecord) (tables : Tables) :
    Except QueueError Tables :=
  match tables.tasks.find? (pendingTask req.taskId) with
  | none => .error (notPending req.taskId)
  | some _ => .ok { tables with
      tasks := update (pendingTask req.taskId) (updatePendingSet req row) tables.tasks }

/- The three mutators of `_mutate_running_task_data`, on values already normalised. -/

def positiveInts (values : List Json) : List Int :=
  values.filterMap fun
    | .int value => if value > 0 then some value else none
    | _ => none

inductive DataMutation where
  | extendIntList (fieldName : String) (values : List Int)
  | extendObjectList (fieldName : String) (values : List Json.Object)
  | clearKeys (fieldNames : List String)
  deriving Repr

/- The new data, or nothing where the mutator reports no change. -/
def DataMutation.apply (m : DataMutation) (data : Json.Object) : Option Json.Object :=
  match m with
  | .extendIntList field values =>
    let existing := Json.items (Json.get data field)
    let merged := ((positiveInts existing ++ values.filter (· > 0)).dedup).insertionSort (· ≤ ·)
    if existing.length = merged.length ∧ positiveInts existing = merged then none
    else some (Json.set data field (.arr (merged.map .int)))
  | .extendObjectList field values =>
    some (Json.set data field (.arr (Json.items (Json.get data field) ++ values.map .obj)))
  | .clearKeys fields =>
    if fields.any fun field => (Json.get data field).isSome then some (fields.foldl Json.erase data)
    else none

def openTask (taskId : String) (task : TaskRecord) : Bool := task.id == taskId && task.status.opened

def mutateRunningTaskData (m : DataMutation) (taskId : String) (now : Seconds) (tables : Tables) :
    Except QueueError Tables :=
  match tables.tasks.find? (openTask taskId) with
  | none => .error (.valueError ("Task " ++ taskId ++ " is not open"))
  | some row => match m.apply row.data with
    | none => .ok tables
    | some data => .ok { tables with
        tasks := update (openTask taskId) (fun task => { task with data := data, updatedAt := now })
          tables.tasks }

/- `list_tasks(status='running', workspace_id=…, limit=200)` -/
def listRunning (workspaceId : Option String) (tables : Tables) : List TaskRecord :=
  ((tables.tasks.filter fun task => task.status == .running &&
      (workspaceId.isNone || task.workspaceId == workspaceId)).insertionSort fun a b =>
    a.updatedAt > b.updatedAt ∨ a.updatedAt = b.updatedAt ∧ a.createdAt ≥ b.createdAt).take 200

end McpMemory.Tasks
