import McpMemory.Tasks.Queue

/-! Calls of the queue and of its worker as control states between transactions.
`step` runs the next statement or transaction of one call. The worker settles a
claimed task after its handler has ended: it reads the cancellation flag in one
step and finishes, fails or retires the task in later ones. Both recoveries list
the running tasks once and then act on that list, task by task.

Not here: the attempt, conversation and work-item clean-up after a settled task,
and follow-up scheduling, which enters the queue as further `enqueue` calls. -/
namespace McpMemory.Tasks
open Interleave

/- The row of `task_execution_attempts` as far as recovery reads it. -/
structure Attempt where
  startedAt : Seconds
  lastHeartbeatAt : Option Seconds
  subprocessPid : Option Int
  deriving DecidableEq, Repr

/- What a recovery knows besides the listed row: the clock, `_is_process_alive`,
the attempt row and the curator start-up marker of each task. -/
structure Surroundings where
  now : Seconds
  staleAfterSeconds : Seconds
  retryDelaySeconds : Seconds
  alive : Int → Bool
  attempt : TaskRecord → Option Attempt
  startupStartedAt : TaskRecord → Option Seconds
  startupActive : TaskRecord → Bool
  owned : TaskRecord → Bool
  includeOwnedTask : Bool

def recentActivity (task : TaskRecord) : Seconds :=
  max task.updatedAt (max (task.startedAt.getD task.updatedAt) (task.claimedAt.getD task.updatedAt))

def isStale (env : Surroundings) (recentActivityAt : Seconds) : Bool :=
  max (env.now - recentActivityAt) 0 ≥ env.staleAfterSeconds

def exitedUnexpectedly (pid : Int) : String :=
  "Provider subprocess " ++ toString pid ++ " exited unexpectedly"

def abandonedText : String := "Task was abandoned without an active provider subprocess"

/- The body of the loop of `recover_abandoned_running_tasks`. -/
def abandonedDeparture (env : Surroundings) (task : TaskRecord) : Option Departure :=
  let stale := isStale env (recentActivity task)
  match task.subprocessPid with
  | some pid =>
    if env.alive pid then none
    else if !stale then none
    else if task.cancellationRequestedAt.isSome then some .finalizeCancellation
    else some (.failPermanently (exitedUnexpectedly pid))
  | none =>
    if task.cancellationRequestedAt.isSome then some .finalizeCancellation
    else if stale then some (.fail abandonedText 5)
    else none

def attemptActivity (task : TaskRecord) : Option Attempt → Seconds
  | none => recentActivity task
  | some attempt => max (recentActivity task)
      (max attempt.startedAt (attempt.lastHeartbeatAt.getD attempt.startedAt))

def attemptPid (task : TaskRecord) (attempt : Option Attempt) : Option Int :=
  (attempt.bind (·.subprocessPid)).or task.subprocessPid

/- `_classify_running_task_recovery` -/
def classifyRunningTaskRecovery (env : Surroundings) (task : TaskRecord) : Option Departure :=
  let attempt := env.attempt task
  let stale := isStale env (attemptActivity task attempt)
  if env.startupActive task then none
  else match attemptPid task attempt with
  | some pid =>
    if env.alive pid then none
    else if !stale then none
    else if task.cancellationRequestedAt.isSome then some .finalizeCancellation
    else some (.fail (exitedUnexpectedly pid) env.retryDelaySeconds)
  | none =>
    if task.cancellationRequestedAt.isSome then some .finalizeCancellation
    else if !stale then none
    else if (env.startupStartedAt task).isSome && attempt.isSome then
      some (.fail "Curator provider startup became stale before an active provider subprocess was observed"
        env.retryDelaySeconds)
    else some (.fail abandonedText env.retryDelaySeconds)

/- The body of the loop of `_recover_running_tasks`. -/
def workerDeparture (env : Surroundings) (task : TaskRecord) : Option Departure :=
  if env.owned task && !env.includeOwnedTask then none
  else if env.owned task && ((env.attempt task).bind (·.subprocessPid)).isNone then none
  else classifyRunningTaskRecovery env task

inductive Recovery where
  | queue
  | worker
  deriving DecidableEq, Repr

def Recovery.departure : Recovery → Surroundings → TaskRecord → Option Departure
  | .queue => abandonedDeparture
  | .worker => workerDeparture

/- Only the worker's recovery names the epoch it classified. -/
def Recovery.epoch : Recovery → TaskRecord → Option Int
  | .queue,_ => none
  | .worker,task => some task.executionEpoch

/- How the handler of a claimed task ended, as `_process_task` tells it apart. -/
inductive Outcome where
  | noHandler
  | idlePause (result : Json.Object)
  | interrupted (stopping : Bool)
  | raised (error : String) (retryDelaySeconds : Seconds)
  | returned (result : Json.Object)
  | unexpected (error : String) (retryDelaySeconds : Seconds)
  deriving Repr

inductive Op where
  | enqueue (req : EnqueueRequest)
  | enqueueUnique (req : EnqueueRequest)
  | claimNext (now : Seconds) (workspace : WorkspaceFilter)
  | leave (d : Departure) (taskId : String) (executionEpoch : Option Int) (now : Seconds)
  | touch (t : Touch) (taskId : String) (executionEpoch : Option Int) (now : Seconds)
  | requestCancel (req : CancelRequest)
  | updatePendingTask (req : PendingUpdate)
  | mutateRunningTaskData (m : DataMutation) (taskId : String) (now : Seconds)
  | recover (r : Recovery) (workspaceId : Option String) (env : Surroundings)
  | settle (task : TaskRecord) (outcome : Outcome) (now : Seconds)

inductive Answer where
  | task (task : TaskRecord)
  | unique (task : TaskRecord) (created : Bool)
  | claimed (task : Option TaskRecord)
  | tasks (tasks : List TaskRecord)
  | none
  deriving Repr

inductive Call where
  | enqueue (req : EnqueueRequest)
  | enqueueUnique (req : EnqueueRequest)
  | insertUnique (req : EnqueueRequest)
  | findAgain (req : EnqueueRequest)
  | claimNext (now : Seconds) (workspace : WorkspaceFilter)
  | leave (d : Departure) (taskId : String) (executionEpoch : Option Int) (now : Seconds)
  | leaving (d : Departure) (taskId : String) (executionEpoch : Option Int) (now : Seconds)
      (row : TaskRecord)
  | touch (t : Touch) (taskId : String) (executionEpoch : Option Int) (now : Seconds)
  | requestCancel (req : CancelRequest)
  | cancelPending (req : CancelRequest) (row : TaskRecord)
  | cancelRunning (req : CancelRequest)
  | updatePendingTask (req : PendingUpdate)
  | updatingPending (req : PendingUpdate) (row : TaskRecord)
  | mutateRunningTaskData (m : DataMutation) (taskId : String) (now : Seconds)
  | getTask (taskId : String)
  | getCreated (taskId : String)
  | recover (r : Recovery) (workspaceId : Option String) (env : Surroundings)
  | recovering (r : Recovery) (env : Surroundings) (current : Call) (todo recovered : List TaskRecord)
  | settle (task : TaskRecord) (outcome : Outcome) (now : Seconds)
  | settling (task : TaskRecord) (outcome : Outcome) (now : Seconds)
  | answered (answer : Except QueueError Answer)

def enter : Op → Call
  | .enqueue req => .enqueue req
  | .enqueueUnique req => .enqueueUnique { req with taskId := none }
  | .claimNext now workspace => .claimNext now workspace
  | .leave d taskId epoch now => .leave d taskId epoch now
  | .touch t taskId epoch now => .touch t taskId epoch now
  | .requestCancel req => .requestCancel req
  | .updatePendingTask req => .updatePendingTask req
  | .mutateRunningTaskData m taskId now => .mutateRunningTaskData m taskId now
  | .recover r workspaceId env => .recover r workspaceId env
  | .settle task outcome now => .settle task outcome now

/- History, never read by a call. A run is recorded with the epoch of the attempt
that it closes, or with none where a task that was pending is cancelled. -/
inductive Emitted where
  | created (taskId : String) (unique : Bool)
  | claimed (before after : TaskRecord) (now : Seconds)
  | recorded (run : TaskRunRecord) (executionEpoch : Option Int)
  | cancelRequested (taskId : String)
  deriving Repr

abbrev After := Call × Tables × List Emitted

def reject (error : QueueError) (tables : Tables) : After := (.answered (.error error),tables,[])

def getTask (taskId : String) (answer : TaskRecord → Answer) (tables : Tables) : Call :=
  match findTask tables taskId with
  | none => .answered (.error (notFound taskId))
  | some task => .answered (.ok (answer task))

def readRunning (d : Departure) (taskId : String) (epoch : Option Int) (now : Seconds)
    (tables : Tables) : Call :=
  match getRunningTaskRow tables taskId epoch with
  | none => .answered (.error (runningTaskMismatchError taskId epoch))
  | some row => .leaving d taskId epoch now row

/- What the worker does once it knows the flag. -/
def settlement (task : TaskRecord) (cancelled : Bool) : Outcome → Departure
  | .noHandler => .failPermanently ("No task handler registered for " ++ task.taskName)
  | .idlePause result => .complete result
  | .interrupted stopping =>
    if cancelled || stopping then .finalizeCancellation
    else .failPermanently "Task interrupted during worker shutdown"
  | .raised error delay => if cancelled then .finalizeCancellation else .fail error delay
  | .returned result => if cancelled then .finalizeCancellation else .complete result
  | .unexpected error delay => .fail ("Unhandled runtime task worker error: " ++ error) delay

/- The first read of a settlement. A task without a handler and an idle pause
skip the flag; an interrupted task is looked up before the flag is read; an
unexpected error looks the task up and never reads the flag. -/
def settleRead (task : TaskRecord) (outcome : Outcome) (now : Seconds) (tables : Tables) : Call :=
  match outcome with
  | .noHandler | .idlePause _ =>
    readRunning (settlement task false outcome) task.id (some task.executionEpoch) now tables
  | .interrupted _ => match findTask tables task.id with
    | none => .answered (.error (notFound task.id))
    | some current =>
      if current.status == .running then .settling task outcome now else .answered (.ok .none)
  | .raised _ _ | .returned _ =>
    .leave (settlement task (isCancellationRequested task.id tables) outcome) task.id
      (some task.executionEpoch) now
  | .unexpected _ _ => match findTask tables task.id with
    | none => .answered (.ok .none)
    | some current =>
      if current.status == .running then
        .leave (settlement task false outcome) task.id (some current.executionEpoch) now
      else .answered (.ok .none)

def recoverNext (r : Recovery) (env : Surroundings) (recovered : List TaskRecord) :
    List TaskRecord → Call
  | [] => .answered (.ok (.tasks recovered))
  | task::rest => match r.departure env task with
    | none => recoverNext r env recovered rest
    | some d => .recovering r env (.leave d task.id (r.epoch task) env.now) rest recovered

/- An answered call inside a recovery hands over to the next listed task, or ends
the recovery with its error. -/
def recoverOn (r : Recovery) (env : Surroundings) (current : Call) (todo recovered : List TaskRecord) :
    Call :=
  match current with
  | .answered (.ok (.task task)) => recoverNext r env (recovered ++ [task]) todo
  | .answered (.error error) => .answered (.error error)
  | current => .recovering r env current todo recovered

def step (call : Call) (tables : Tables) : After :=
  match call with
  | .enqueue req => match enqueue req tables with
    | .error error => reject error tables
    | .ok after => (.getTask req.identifier,after,[.created req.identifier false])
  | .enqueueUnique req => match findOpenTask req.taskName req.workspaceId tables with
    | some task => (.answered (.ok (.unique task false)),tables,[])
    | none => (.insertUnique req,tables,[])
  | .insertUnique req => match enqueue req tables with
    | .error .integrityError => (.findAgain req,tables,[])
    | .error error => reject error tables
    | .ok after => (.getCreated req.identifier,after,[.created req.identifier true])
  | .findAgain req => match findOpenTask req.taskName req.workspaceId tables with
    | some task => (.answered (.ok (.unique task false)),tables,[])
    | none => reject .integrityError tables
  | .claimNext now workspace => match claimNext now workspace tables with
    | (none,after) => (.answered (.ok (.claimed none)),after,[])
    | (some (before,claimed),after) =>
      (.answered (.ok (.claimed (some claimed))),after,[.claimed before claimed now])
  | .leave d taskId epoch now => (readRunning d taskId epoch now tables,tables,[])
  | .leaving d taskId epoch now row => match leaveRunning d taskId epoch now row tables with
    | .error error => reject error tables
    | .ok (current,run,after) => (.getTask taskId,after,[.recorded run (some current)])
  | .touch t taskId epoch now => match touchRunning t taskId epoch now tables with
    | .error error => reject error tables
    | .ok after => (.getTask taskId,after,[])
  | .requestCancel req => match findTask tables req.taskId with
    | none => reject (notFound req.taskId) tables
    | some row =>
      if row.status = .pending then (.cancelPending req row,tables,[])
      else if row.status = .running then (.cancelRunning req,tables,[])
      else reject (.valueError ("Task " ++ req.taskId ++ " is not cancellable")) tables
  | .cancelPending req row => match cancelPending req row tables with
    | .error error => reject error tables
    | .ok (run,after) => (.getTask req.taskId,after,[.recorded run none])
  | .cancelRunning req => match cancelRunning req tables with
    | .error error => reject error tables
    | .ok after => (.getTask req.taskId,after,[.cancelRequested req.taskId])
  | .updatePendingTask req => match tables.tasks.find? (pendingTask req.taskId) with
    | none => reject (notPending req.taskId) tables
    | some row => (.updatingPending req row,tables,[])
  | .updatingPending req row => match updatePendingTask req row tables with
    | .error error => reject error tables
    | .ok after => (.getTask req.taskId,after,[])
  | .mutateRunningTaskData m taskId now => match mutateRunningTaskData m taskId now tables with
    | .error error => reject error tables
    | .ok after => (.getTask taskId,after,[])
  | .getTask taskId => (getTask taskId .task tables,tables,[])
  | .getCreated taskId => (getTask taskId (.unique · true) tables,tables,[])
  | .recover r workspaceId env => (recoverNext r env [] (listRunning workspaceId tables),tables,[])
  | .recovering r env current todo recovered =>
    let after := step current tables
    (recoverOn r env after.1 todo recovered,after.2)
  | .settle task outcome now => (settleRead task outcome now tables,tables,[])
  | .settling task outcome now =>
    (.leave (settlement task (isCancellationRequested task.id tables) outcome) task.id
      (some task.executionEpoch) now,tables,[])
  | .answered answer => (.answered answer,tables,[])

def queue : Machine Op Call Tables Emitted := ⟨enter,step⟩

abbrev Schedule := List (Event Op)

/- Every reachable state: the empty tables, then any calls advanced in any order. -/
def reached (events : Schedule) : World Call Tables Emitted := queue.run (idle empty) events

end McpMemory.Tasks
