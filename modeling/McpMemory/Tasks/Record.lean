import McpMemory.Lib.Json
import McpMemory.Lib.Table

/-! The `tasks` and `task_runs` tables of the queue. Clock readings and delays are
whole numbers of one unit; nothing here depends on how a float rounds. -/
namespace McpMemory.Tasks

abbrev Seconds := Int

inductive Status where
  | pending
  | running
  | completed
  | failed
  | cancelled
  deriving DecidableEq, Repr

def Status.opened : Status → Bool
  | .pending | .running => true
  | .completed | .failed | .cancelled => false

structure TaskRecord where
  id : String
  taskName : String
  workspaceId : Option String
  data : Json.Object
  status : Status
  executionEpoch : Int
  priority : Int
  retriesCount : Int
  maxRetries : Int
  createdAt : Seconds
  updatedAt : Seconds
  availableAt : Seconds
  claimedAt : Option Seconds
  startedAt : Option Seconds
  completedAt : Option Seconds
  lastError : Option String
  subprocessPid : Option Int
  activeRequestId : Option String
  cancellationRequestedAt : Option Seconds
  cancelledAt : Option Seconds
  cancellationReason : Option String
  cancelledBy : Option String
  deriving Repr

inductive RunStatus where
  | completed
  | retry
  | failed
  | cancelled
  deriving DecidableEq, Repr

/- The id is drawn by uuid4; it is the number of the row, so no two runs share one. -/
structure TaskRunRecord where
  id : Nat
  taskId : String
  taskName : String
  workspaceId : Option String
  status : RunStatus
  startedAt : Seconds
  completedAt : Seconds
  durationSeconds : Seconds
  result : Json.Object
  errorText : Option String
  deriving Repr

structure Tables where
  tasks : List TaskRecord
  taskRuns : List TaskRunRecord
  deriving Repr

def empty : Tables := ⟨[],[]⟩

def projectManager := "project-manager"
def factChecker := "fact-checker"
def graphLinker := "graph-linker"
def conflictDetector := "conflict-detector"
def defragmenter := "defragmenter"
def deduplicator := "deduplicator"
def taxonomist := "taxonomist"
def sweeper := "sweeper"
def curator := "memory-curator"

def backgroundCleanupTaskNames : List String :=
  [projectManager,factChecker,graphLinker,conflictDetector,defragmenter,deduplicator,taxonomist,
    sweeper,curator]

def TaskRecord.runningCleanup (task : TaskRecord) : Bool :=
  task.status == .running && backgroundCleanupTaskNames.contains task.taskName

def TaskRecord.terminal (task : TaskRecord) : Prop := task.status.opened = false

inductive QueueError where
  | valueError (message : String)
  | integrityError
  deriving DecidableEq, Repr

def notFound (taskId : String) : QueueError := .valueError ("Task " ++ taskId ++ " was not found")

/- `_running_task_mismatch_error` -/
def runningTaskMismatchError (taskId : String) : Option Int → QueueError
  | none => .valueError ("Task " ++ taskId ++ " is not running")
  | some epoch => .valueError
      ("Task " ++ taskId ++ " is not running for execution epoch " ++ toString epoch)

def findTask (tables : Tables) (taskId : String) : Option TaskRecord :=
  tables.tasks.find? (·.id == taskId)

/- `WHERE id = ? AND status = 'running' [AND execution_epoch = ?]` -/
def runningTask (taskId : String) (executionEpoch : Option Int) (task : TaskRecord) : Bool :=
  task.id == taskId && task.status == .running &&
    match executionEpoch with
    | none => true
    | some epoch => task.executionEpoch == epoch

def getRunningTaskRow (tables : Tables) (taskId : String) (executionEpoch : Option Int) :
    Option TaskRecord := tables.tasks.find? (runningTask taskId executionEpoch)

theorem runningTaskSource {taskId epoch task} : runningTask taskId epoch task = true ↔
    task.id = taskId ∧ task.status = .running ∧ ∀ e, epoch = some e → task.executionEpoch = e := by
  cases epoch <;> simp [runningTask,and_assoc]

theorem runningCleanupSource {task : TaskRecord} : task.runningCleanup = true ↔
    task.status = .running ∧ task.taskName ∈ backgroundCleanupTaskNames := by
  simp [TaskRecord.runningCleanup]

end McpMemory.Tasks
