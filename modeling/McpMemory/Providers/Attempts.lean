import Mathlib
import McpMemory.Lib.Table

/-! The rows of `task_execution_attempts`, as `task_execution_store.py` keeps them in SQLite and
`storage/postgres_task_execution_store.py` in PostgreSQL. Not here: the surrogate id. -/
namespace McpMemory.Attempts
open Table

structure Attempt where
  taskId : String
  executionEpoch : Int
  workspaceId : Option String
  taskName : Option String
  requestId : Option String
  subprocessPid : Option Int
  providerKey : Option String
  providerName : Option String
  modelName : Option String
  status : String
  startedAt : Int
  lastHeartbeatAt : Option Int
  completedAt : Option Int
  errorText : Option String
  terminationReason : Option String
  deriving DecidableEq, Repr

/- The workspace is the repository's. -/
structure Start where
  taskId : String
  executionEpoch : Int
  workspaceId : Option String
  taskName : Option String
  requestId : Option String
  subprocessPid : Option Int
  providerKey : Option String
  providerName : Option String
  modelName : Option String
  startedAt : Int
  status : String

structure Heartbeat where
  taskId : String
  executionEpoch : Int
  heartbeatAt : Int
  requestId : Option String
  subprocessPid : Option Int

structure Finish where
  taskId : String
  executionEpoch : Int
  status : String
  completedAt : Int
  requestId : Option String
  subprocessPid : Option Int
  errorText : Option String
  terminationReason : Option String

inductive AttemptError where
  | valueError (message : String)
  | overflowError
  | dataError
  deriving DecidableEq, Repr

abbrev Outcome := Except AttemptError Attempt × List Attempt

def isAttempt (taskId : String) (executionEpoch : Int) (row : Attempt) : Bool :=
  row.taskId == taskId && row.executionEpoch == executionEpoch

def notFound (taskId : String) (executionEpoch : Int) : AttemptError :=
  .valueError ("Task execution attempt " ++ taskId ++ "@" ++ toString executionEpoch ++ " was not found")

def getAttempt (taskId : String) (executionEpoch : Int) (rows : List Attempt) : Except AttemptError Attempt :=
  match rows.find? (isAttempt taskId executionEpoch) with
  | none => .error (notFound taskId executionEpoch)
  | some row => .ok row

def attempt (a : Start) : Attempt :=
  ⟨a.taskId,a.executionEpoch,a.workspaceId,a.taskName,a.requestId,a.subprocessPid,a.providerKey,a.providerName,a.modelName,
    a.status,a.startedAt,some a.startedAt,none,none,none⟩

/- A finished attempt is begun anew by a request or a process other than its own. -/
def shouldReopen (requestId : Option String) (subprocessPid : Option Int) (existing : Attempt) : Bool :=
  match requestId,existing.requestId with
  | some new,some old => new != old
  | _,_ => match subprocessPid,existing.subprocessPid with
    | some new,some old => new != old
    | _,_ => true

namespace Sqlite

/- What the driver can bind: 64 bits. -/
def binds (n : Int) : Bool := -2 ^ 63 ≤ n && n < 2 ^ 63

def bindsCall (executionEpoch : Int) (subprocessPid : Option Int) : Bool :=
  binds executionEpoch && subprocessPid.all binds

/- `MAX(COALESCE(last_heartbeat_at, now), now)`. -/
def beaten (last : Option Int) (now : Int) : Option Int := some (max (last.getD now) now)

/- The SET of the upsert. -/
def restart (a : Start) (row : Attempt) : Attempt :=
  let running := row.completedAt.isNone
  let reopens := row.completedAt.isSome && shouldReopen a.requestId a.subprocessPid row
  { row with
    workspaceId := a.workspaceId.or row.workspaceId
    taskName := a.taskName.or row.taskName
    requestId := if running then a.requestId.or row.requestId else if reopens then a.requestId else row.requestId
    subprocessPid :=
      if running then a.subprocessPid.or row.subprocessPid else if reopens then a.subprocessPid else row.subprocessPid
    providerKey := a.providerKey.or row.providerKey
    providerName := a.providerName.or row.providerName
    modelName := a.modelName.or row.modelName
    status := if running then a.status else if reopens then a.status else row.status
    startedAt :=
      if running then min row.startedAt a.startedAt else if reopens then a.startedAt else row.startedAt
    lastHeartbeatAt :=
      if running then beaten row.lastHeartbeatAt a.startedAt else if reopens then some a.startedAt else row.lastHeartbeatAt
    completedAt := if running then none else if reopens then none else row.completedAt
    errorText := if running then none else if reopens then none else row.errorText
    terminationReason := if running then none else if reopens then none else row.terminationReason }

def beat (b : Heartbeat) (row : Attempt) : Attempt :=
  let running := row.completedAt.isNone
  { row with
    lastHeartbeatAt := if running then beaten row.lastHeartbeatAt b.heartbeatAt else row.lastHeartbeatAt
    requestId := if running then b.requestId.or row.requestId else row.requestId
    subprocessPid := if running then b.subprocessPid.or row.subprocessPid else row.subprocessPid }

def finish (f : Finish) (row : Attempt) : Attempt :=
  let running := row.completedAt.isNone
  { row with
    status := if running then f.status else row.status
    completedAt := row.completedAt.or (some f.completedAt)
    lastHeartbeatAt := if running then beaten row.lastHeartbeatAt f.completedAt else row.lastHeartbeatAt
    requestId := f.requestId.or row.requestId
    subprocessPid := f.subprocessPid.or row.subprocessPid
    errorText := if running then f.errorText.or row.errorText else row.errorText
    terminationReason := if running then f.terminationReason.or row.terminationReason else row.terminationReason }

def startAttempt (a : Start) (rows : List Attempt) : Outcome :=
  if bindsCall a.executionEpoch a.subprocessPid then
    let isHere := isAttempt a.taskId a.executionEpoch
    let after := if rows.any isHere then update isHere (restart a) rows else rows ++ [attempt a]
    (getAttempt a.taskId a.executionEpoch after,after)
  else (.error .overflowError,rows)

/- An UPDATE that has to hit one row. -/
def change (taskId : String) (executionEpoch : Int) (subprocessPid : Option Int) (set : Attempt → Attempt)
    (rows : List Attempt) : Outcome :=
  if bindsCall executionEpoch subprocessPid then
    let isHere := isAttempt taskId executionEpoch
    if rows.countP isHere = 1 then
      (getAttempt taskId executionEpoch (update isHere set rows),update isHere set rows)
    else (.error (notFound taskId executionEpoch),rows)
  else (.error .overflowError,rows)

def heartbeatAttempt (b : Heartbeat) : List Attempt → Outcome := change b.taskId b.executionEpoch b.subprocessPid (beat b)

def finishAttempt (f : Finish) : List Attempt → Outcome := change f.taskId f.executionEpoch f.subprocessPid (finish f)

end Sqlite

namespace Postgres

/- `or` between texts: an empty one counts as none. -/
def orText (left right : Option String) : Option String := if left.any (· != "") then left else right

/- `last_heartbeat_at or now`: zero counts as none. -/
def orTime (left : Option Int) (now : Int) : Int := if left.any (· != 0) then left.getD now else now

/- A TEXT column takes no NUL and an INTEGER column has 32 bits. -/
def isText (text : String) : Bool := !text.toList.contains '\x00'

def isInteger (n : Int) : Bool := -2 ^ 31 ≤ n && n < 2 ^ 31

def isStorable (row : Attempt) : Bool :=
  isText row.taskId && isInteger row.executionEpoch && row.workspaceId.all isText && row.taskName.all isText &&
    row.requestId.all isText && row.subprocessPid.all isInteger && row.providerKey.all isText &&
    row.providerName.all isText && row.modelName.all isText && isText row.status && row.errorText.all isText &&
    row.terminationReason.all isText

def restart (a : Start) (existing : Attempt) : Attempt :=
  if existing.completedAt.isNone then { existing with
    workspaceId := orText existing.workspaceId a.workspaceId
    taskName := orText existing.taskName a.taskName
    requestId := orText a.requestId existing.requestId
    subprocessPid := a.subprocessPid.or existing.subprocessPid
    providerKey := orText existing.providerKey a.providerKey
    providerName := orText existing.providerName a.providerName
    modelName := orText existing.modelName a.modelName
    status := a.status
    startedAt := min existing.startedAt a.startedAt
    lastHeartbeatAt := some (max (orTime existing.lastHeartbeatAt a.startedAt) a.startedAt)
    completedAt := none, errorText := none, terminationReason := none }
  else if shouldReopen a.requestId a.subprocessPid existing then { existing with
    workspaceId := orText existing.workspaceId a.workspaceId
    taskName := orText existing.taskName a.taskName
    requestId := a.requestId
    subprocessPid := a.subprocessPid
    providerKey := orText existing.providerKey a.providerKey
    providerName := orText existing.providerName a.providerName
    modelName := orText existing.modelName a.modelName
    status := a.status
    startedAt := a.startedAt
    lastHeartbeatAt := some a.startedAt
    completedAt := none, errorText := none, terminationReason := none }
  else existing

def beat (b : Heartbeat) (existing : Attempt) : Attempt := { existing with
  requestId := orText b.requestId existing.requestId
  subprocessPid := b.subprocessPid.or existing.subprocessPid
  lastHeartbeatAt := some (max (orTime existing.lastHeartbeatAt b.heartbeatAt) b.heartbeatAt)
  completedAt := none }

def finish (f : Finish) (existing : Attempt) : Attempt :=
  if existing.completedAt.isNone then { existing with
    requestId := orText f.requestId existing.requestId
    subprocessPid := f.subprocessPid.or existing.subprocessPid
    status := f.status
    lastHeartbeatAt := some (max (orTime existing.lastHeartbeatAt f.completedAt) f.completedAt)
    completedAt := some f.completedAt
    errorText := orText f.errorText existing.errorText
    terminationReason := orText f.terminationReason existing.terminationReason }
  else { existing with
    requestId := orText f.requestId existing.requestId
    subprocessPid := f.subprocessPid.or existing.subprocessPid }

/- `get_attempt` after the COMMIT. -/
def reread (taskId : String) (executionEpoch : Int) (rows : List Attempt) : Outcome :=
  (getAttempt taskId executionEpoch rows,rows)

/- `_update_attempt_row` writes every column of the row it is given. -/
def updateAttemptRow (updated : Attempt) (rows : List Attempt) : Outcome :=
  if isStorable updated then
    reread updated.taskId updated.executionEpoch
      (update (isAttempt updated.taskId updated.executionEpoch) (fun _ => updated) rows)
  else (.error .dataError,rows)

def startAttempt (a : Start) (rows : List Attempt) : Outcome :=
  if isText a.taskId then
    match rows.find? (isAttempt a.taskId a.executionEpoch) with
    | none =>
      if isStorable (attempt a) then reread a.taskId a.executionEpoch (rows ++ [attempt a])
      else (.error .dataError,rows)
    | some existing => updateAttemptRow (restart a existing) rows
  else (.error .dataError,rows)

def heartbeatAttempt (b : Heartbeat) (rows : List Attempt) : Outcome :=
  if isText b.taskId then
    match rows.find? (isAttempt b.taskId b.executionEpoch) with
    | none => (.error (notFound b.taskId b.executionEpoch),rows)
    | some existing =>
      if existing.completedAt.isNone then updateAttemptRow (beat b existing) rows
      else reread b.taskId b.executionEpoch rows
  else (.error .dataError,rows)

def finishAttempt (f : Finish) (rows : List Attempt) : Outcome :=
  if isText f.taskId then
    match rows.find? (isAttempt f.taskId f.executionEpoch) with
    | none => (.error (notFound f.taskId f.executionEpoch),rows)
    | some existing => updateAttemptRow (finish f existing) rows
  else (.error .dataError,rows)

end Postgres

inductive Operation where
  | start (a : Start)
  | heartbeat (b : Heartbeat)
  | finish (f : Finish)

def Sqlite.perform : Operation → List Attempt → Outcome
  | .start a => startAttempt a
  | .heartbeat b => heartbeatAttempt b
  | .finish f => finishAttempt f

def Postgres.perform : Operation → List Attempt → Outcome
  | .start a => startAttempt a
  | .heartbeat b => heartbeatAttempt b
  | .finish f => finishAttempt f

end McpMemory.Attempts
