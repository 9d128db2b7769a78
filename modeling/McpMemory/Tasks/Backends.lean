import McpMemory.Postgres.Columns
import McpMemory.Providers.Attempts
import McpMemory.Tasks.Calls

/-! `SQLiteTaskQueue` and `PostgresTaskQueue` side by side, one call after the other. A call of
SQLite runs on the connection of its thread, which a rejected write leaves inside a transaction;
a call of PostgreSQL hands its connection back, which rolls back what it has not committed.
Neither database says in which order rows come that an ORDER BY does not tell apart, so each has
its own `arrange`. What a call rejects for a lock is not here: no other call is under way. -/
namespace McpMemory.Tasks
open Table
open Attempts.Sqlite (binds)
open Attempts.Postgres (isText isInteger)
open Postgres (isJsonb)

inductive Operation where
  | enqueue (req : EnqueueRequest)
  | enqueueUnique (req : EnqueueRequest)
  | claimNext (now : Seconds) (workspace : WorkspaceFilter)
  | leave (d : Departure) (taskId : String) (executionEpoch : Option Int) (now : Seconds)
  | touch (t : Touch) (taskId : String) (executionEpoch : Option Int) (now : Seconds)
  | requestCancel (req : CancelRequest)
  | recoverAbandonedRunningTasks (workspaceId : Option String) (env : Surroundings)

inductive Fault where
  | queue (error : QueueError)
  | overflow
  | operational (message : String)
  | data
  deriving DecidableEq, Repr

abbrev Reply (σ α : Type) := Except Fault α × σ

/- Only whether the operation was accepted, and with what. -/
def accepted {σ : Type} (reply : Reply σ Answer) : Option Answer × σ := (reply.1.toOption,reply.2)

def Reply.map {σ α β : Type} (f : α → β) (reply : Reply σ α) : Reply σ β := (Except.map f reply.1,reply.2)

def taskOf (taskId : String) (tables : Tables) : Except Fault TaskRecord :=
  match findTask tables taskId with
  | none => .error (.queue (notFound taskId))
  | some task => .ok task

def notCancellable (taskId : String) : Fault := .queue (.valueError ("Task " ++ taskId ++ " is not cancellable"))

/- The queries whose ORDER BY may leave ties. -/

def openRows (taskName : String) (workspaceId : Option String) (tables : Tables) : List TaskRecord :=
  tables.tasks.filter fun task => task.taskName == taskName && task.workspaceId == workspaceId && task.status.opened

def oldest (rows : List TaskRecord) : Option TaskRecord := (rows.insertionSort fun a b => a.createdAt ≤ b.createdAt).head?

def claimableRows (now : Seconds) (workspace : WorkspaceFilter) (tables : Tables) : List TaskRecord :=
  tables.tasks.filter (claimable now workspace tables)

def foremost (rows : List TaskRecord) : Option TaskRecord := (rows.insertionSort claimOrder).head?

def runningRows (workspaceId : Option String) (tables : Tables) : List TaskRecord :=
  tables.tasks.filter fun task => task.status == .running && (workspaceId.isNone || task.workspaceId == workspaceId)

def latest (rows : List TaskRecord) : List TaskRecord :=
  (rows.insertionSort fun a b =>
    a.updatedAt > b.updatedAt ∨ a.updatedAt = b.updatedAt ∧ a.createdAt ≥ b.createdAt).take 200

/- The loop of `recover_abandoned_running_tasks` over the tasks that it listed. -/
def recoverEach {σ : Type} (leave : Departure → String → Option Int → Seconds → σ → Reply σ TaskRecord)
    (env : Surroundings) : List TaskRecord → List TaskRecord → σ → Reply σ (List TaskRecord)
  | [],recovered,s => (.ok recovered,s)
  | task::rest,recovered,s => match abandonedDeparture env task with
    | none => recoverEach leave env rest recovered s
    | some d => match leave d task.id none env.now s with
      | (.ok left,after) => recoverEach leave env rest (recovered ++ [left]) after
      | (.error error,after) => (.error error,after)

/- The integer that a statement of the departure binds. -/
def Departure.bound (d : Departure) (row : TaskRecord) : Option Int :=
  match d with
  | .fail _ _ => some (row.retriesCount + 1)
  | .complete _ | .failPermanently _ | .retryRunningTask _ | .finalizeCancellation => none

def Touch.bound : Touch → Option Int
  | .setRunningProcess subprocessPid _ => subprocessPid
  | .touchRunningTask => none

variable (arrange : List TaskRecord → List TaskRecord)

namespace SqliteTaskQueue

/- The tables, and whether a transaction stands open that has changed nothing. -/
structure Session where
  tables : Tables
  inTransaction : Bool
  deriving Repr

def rejectInside {α : Type} (fault : Fault) (s : Session) : Reply Session α := (.error fault,{ s with inTransaction := true })

/- ROLLBACK, then the error. -/
def rejectOutside {α : Type} (fault : Fault) (s : Session) : Reply Session α := (.error fault,{ s with inTransaction := false })

/- COMMIT, then `get_task`. -/
def committed (taskId : String) (after : Tables) : Reply Session TaskRecord := (taskOf taskId after,⟨after,false⟩)

/- The INSERT begins a transaction, which nothing ends where it fails. -/
def enqueue (req : EnqueueRequest) (s : Session) : Reply Session TaskRecord :=
  if Text.strip req.taskName = "" then (.error (.queue (.valueError "task_name is required")),s)
  else if !(binds req.priority && binds req.maxRetries) then rejectInside .overflow s
  else match Tasks.enqueue req s.tables with
    | .error error => rejectInside (.queue error) s
    | .ok after => committed req.identifier after

def findOpenTask (taskName : String) (workspaceId : Option String) (s : Session) : Option TaskRecord :=
  oldest (arrange (openRows taskName workspaceId s.tables))

def enqueueUnique (req : EnqueueRequest) (s : Session) : Reply Session (TaskRecord × Bool) :=
  match findOpenTask arrange req.taskName req.workspaceId s with
  | some existing => (.ok (existing,false),s)
  | none => match enqueue { req with taskId := none } s with
    | (.error (.queue .integrityError),after) => match findOpenTask arrange req.taskName req.workspaceId after with
      | none => (.error (.queue .integrityError),after)
      | some existing => (.ok (existing,false),after)
    | reply => Reply.map (·,true) reply

def claimNext (now : Seconds) (workspace : WorkspaceFilter) (s : Session) : Reply Session (Option TaskRecord) :=
  if s.inTransaction then (.error (.operational "cannot start a transaction within a transaction"),s)
  else match foremost (arrange (claimableRows now workspace s.tables)) with
    | none => (.ok none,s)
    | some row =>
      if s.tables.tasks.countP (pendingTask row.id) = 1 then
        let after := { s.tables with tasks := update (pendingTask row.id) (claimSet now) s.tables.tasks }
        (.ok (findTask after row.id),⟨after,false⟩)
      else (.ok none,s)

def leave (d : Departure) (taskId : String) (executionEpoch : Option Int) (now : Seconds) (s : Session) :
    Reply Session TaskRecord :=
  if !executionEpoch.all binds then (.error .overflow,s)
  else match getRunningTaskRow s.tables taskId executionEpoch with
    | none => (.error (.queue (runningTaskMismatchError taskId executionEpoch)),s)
    | some row =>
      if !(d.bound row).all binds then rejectInside .overflow s
      else match leaveRunning d taskId executionEpoch now row s.tables with
        | .error error => rejectOutside (.queue error) s
        | .ok (_,_,after) => committed taskId after

def touch (t : Touch) (taskId : String) (executionEpoch : Option Int) (now : Seconds) (s : Session) :
    Reply Session TaskRecord :=
  if !(executionEpoch.all binds && t.bound.all binds) then rejectInside .overflow s
  else match touchRunning t taskId executionEpoch now s.tables with
    | .error error => rejectOutside (.queue error) s
    | .ok after => committed taskId after

def requestCancel (req : CancelRequest) (s : Session) : Reply Session TaskRecord :=
  match findTask s.tables req.taskId with
  | none => (.error (.queue (notFound req.taskId)),s)
  | some row =>
    if row.status = .pending then match cancelPending req row s.tables with
      | .error error => rejectOutside (.queue error) s
      | .ok (_,after) => committed req.taskId after
    else if row.status = .running then match cancelRunning req s.tables with
      | .error error => rejectOutside (.queue error) s
      | .ok after => committed req.taskId after
    else (.error (notCancellable req.taskId),s)

def recoverAbandonedRunningTasks (workspaceId : Option String) (env : Surroundings) (s : Session) :
    Reply Session (List TaskRecord) :=
  recoverEach leave env (latest (arrange (runningRows workspaceId s.tables))) [] s

def perform (operation : Operation) (s : Session) : Reply Session Answer :=
  match operation with
  | .enqueue req => Reply.map .task (enqueue req s)
  | .enqueueUnique req => Reply.map (fun found => .unique found.1 found.2) (enqueueUnique arrange req s)
  | .claimNext now workspace => Reply.map .claimed (claimNext arrange now workspace s)
  | .leave d taskId epoch now => Reply.map .task (leave d taskId epoch now s)
  | .touch t taskId epoch now => Reply.map .task (touch t taskId epoch now s)
  | .requestCancel req => Reply.map .task (requestCancel req s)
  | .recoverAbandonedRunningTasks workspaceId env =>
    Reply.map .tasks (recoverAbandonedRunningTasks arrange workspaceId env s)

end SqliteTaskQueue

namespace PostgresTaskQueue

/- What the columns of `tasks` take. Every stored row has it, so a statement is checked by the row
that it leaves. -/
def isStorable (task : TaskRecord) : Bool :=
  isText task.id && isText task.taskName && task.workspaceId.all isText && isJsonb (.obj task.data) &&
    isInteger task.executionEpoch && isInteger task.priority && isInteger task.retriesCount &&
    isInteger task.maxRetries && task.lastError.all isText && task.subprocessPid.all isInteger &&
    task.activeRequestId.all isText && task.cancellationReason.all isText && task.cancelledBy.all isText

def isStorableRun (run : TaskRunRecord) : Bool :=
  isText run.taskId && isText run.taskName && run.workspaceId.all isText && isJsonb (.obj run.result) &&
    run.errorText.all isText

def reject {α : Type} (fault : Fault) (tables : Tables) : Reply Tables α := (.error fault,tables)

def committed (taskId : String) (after : Tables) : Reply Tables TaskRecord := (taskOf taskId after,after)

def enqueue (req : EnqueueRequest) (tables : Tables) : Reply Tables TaskRecord :=
  if Text.strip req.taskName = "" then reject (.queue (.valueError "task_name is required")) tables
  else if !isStorable req.row then reject .data tables
  else match Tasks.enqueue req tables with
    | .error error => reject (.queue error) tables
    | .ok after => committed req.identifier after

def findOpenTask (taskName : String) (workspaceId : Option String) (tables : Tables) : Except Fault (Option TaskRecord) :=
  if isText taskName && workspaceId.all isText then .ok (oldest (arrange (openRows taskName workspaceId tables)))
  else .error .data

def enqueueUnique (req : EnqueueRequest) (tables : Tables) : Reply Tables (TaskRecord × Bool) :=
  match findOpenTask arrange req.taskName req.workspaceId tables with
  | .error fault => reject fault tables
  | .ok (some existing) => (.ok (existing,false),tables)
  | .ok none => Reply.map (·,true) (enqueue { req with taskId := none } tables)

def isTextFilter : WorkspaceFilter → Bool
  | .any | .unscoped => true
  | .only workspaceId => isText workspaceId

/- The claim of a clean-up task asks its query again under an advisory lock. -/
def claimRow (now : Seconds) (workspace : WorkspaceFilter) (tables : Tables) : Option TaskRecord :=
  match foremost (arrange (claimableRows now workspace tables)) with
  | none => none
  | some row =>
    if backgroundCleanupTaskNames.contains row.taskName then foremost (arrange (claimableRows now workspace tables))
    else some row

def claimNext (now : Seconds) (workspace : WorkspaceFilter) (tables : Tables) : Reply Tables (Option TaskRecord) :=
  if !isTextFilter workspace then reject .data tables
  else match claimRow arrange now workspace tables with
    | none => (.ok none,tables)
    | some row =>
      if !isInteger (row.executionEpoch + 1) then reject .data tables
      else if tables.tasks.countP (pendingTask row.id) = 1 then
        Reply.map some (committed row.id
          { tables with tasks := update (pendingTask row.id) (claimSet now) tables.tasks })
      else (.ok none,tables)

def leave (d : Departure) (taskId : String) (executionEpoch : Option Int) (now : Seconds) (tables : Tables) :
    Reply Tables TaskRecord :=
  if !isText taskId then reject .data tables
  else match getRunningTaskRow tables taskId executionEpoch with
    | none => reject (.queue (runningTaskMismatchError taskId executionEpoch)) tables
    | some row => match leaveRunning d taskId executionEpoch now row tables with
      | .error error => reject (.queue error) tables
      | .ok (_,run,after) =>
        if isStorable (d.set now row row) && isStorableRun run then committed taskId after else reject .data tables

def touch (t : Touch) (taskId : String) (executionEpoch : Option Int) (now : Seconds) (tables : Tables) :
    Reply Tables TaskRecord :=
  if !isText taskId then reject .data tables
  else match getRunningTaskRow tables taskId executionEpoch with
    | none => reject (.queue (runningTaskMismatchError taskId executionEpoch)) tables
    | some row =>
      if !isStorable (t.set now row) then reject .data tables
      else match touchRunning t taskId executionEpoch now tables with
        | .error error => reject (.queue error) tables
        | .ok after => committed taskId after

def requestCancel (req : CancelRequest) (tables : Tables) : Reply Tables TaskRecord :=
  if !isText req.taskId then reject .data tables
  else match findTask tables req.taskId with
    | none => reject (.queue (notFound req.taskId)) tables
    | some row =>
      if row.status = .pending then match cancelPending req row tables with
        | .error error => reject (.queue error) tables
        | .ok (run,after) =>
          if isStorable (cancelPendingSet req row) && isStorableRun run then committed req.taskId after
          else reject .data tables
      else if row.status = .running then match cancelRunning req tables with
        | .error error => reject (.queue error) tables
        | .ok after =>
          if isStorable (cancelRunningSet req row) then committed req.taskId after else reject .data tables
      else reject (notCancellable req.taskId) tables

def recoverAbandonedRunningTasks (workspaceId : Option String) (env : Surroundings) (tables : Tables) :
    Reply Tables (List TaskRecord) :=
  if !workspaceId.all isText then reject .data tables
  else recoverEach leave env (latest (arrange (runningRows workspaceId tables))) [] tables

def perform (operation : Operation) (tables : Tables) : Reply Tables Answer :=
  match operation with
  | .enqueue req => Reply.map .task (enqueue req tables)
  | .enqueueUnique req => Reply.map (fun found => .unique found.1 found.2) (enqueueUnique arrange req tables)
  | .claimNext now workspace => Reply.map .claimed (claimNext arrange now workspace tables)
  | .leave d taskId epoch now => Reply.map .task (leave d taskId epoch now tables)
  | .touch t taskId epoch now => Reply.map .task (touch t taskId epoch now tables)
  | .requestCancel req => Reply.map .task (requestCancel req tables)
  | .recoverAbandonedRunningTasks workspaceId env =>
    Reply.map .tasks (recoverAbandonedRunningTasks arrange workspaceId env tables)

end PostgresTaskQueue

end McpMemory.Tasks
