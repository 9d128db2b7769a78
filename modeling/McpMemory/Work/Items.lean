import Mathlib.Data.List.Sort
import McpMemory.Lib.Connection
import McpMemory.Lib.Table

/-! `storage/sqlite_work_item_store.py` and `embedding_repair_store.py`: two queues of leased
items in one database, over one connection. A method that changes an item reads it again
after its COMMIT. Not here: what only reads. -/
namespace McpMemory.Work
open Table Transaction Connection

inductive StoreError where
  | integrity (message : String)
  | operational (message : String)
  | valueError (message : String)
  deriving DecidableEq, Repr

structure WorkItem where
  id : String
  familyKey : String
  executionLane : String
  workspaceId : Option String
  payloadJson : String
  status : String
  priority : Int
  attemptCount : Nat
  availableAt : Int
  createdAt : Int
  updatedAt : Int
  claimedAt : Option Int
  completedAt : Option Int
  leaseOwner : Option String
  leaseExpiresAt : Option Int
  idempotencyKey : Option String
  lastError : Option String
  deriving DecidableEq, Repr

structure RepairItem where
  id : String
  memoryId : String
  workspaceId : Option String
  modelName : String
  memoryUpdatedAt : String
  status : String
  attemptCount : Nat
  availableAt : Int
  createdAt : Int
  updatedAt : Int
  claimedAt : Option Int
  completedAt : Option Int
  leaseOwner : Option String
  leaseExpiresAt : Option Int
  lastError : Option String
  deriving DecidableEq, Repr

structure Queues where
  workItems : List WorkItem
  repairs : List RepairItem
  deriving DecidableEq, Repr

abbrev Call (α : Type) := Connected Queues StoreError α

/- Where a queue has its rows, and what its constraints compare. -/
structure Queue (ρ : Type) where
  rows : Queues → List ρ
  put : List ρ → Queues → Queues
  id : ρ → String
  clashes : ρ → ρ → Bool
  constraint : String
  missing : String → StoreError

section
variable {ρ : Type} (queue : Queue ρ)

def getItem (itemId : String) : Call ρ := do
  match ← query fun data => (queue.rows data).find? (queue.id · == itemId) with
  | none => raise (queue.missing itemId)
  | some item => pure item

def insert (item : ρ) : Call Unit := execute fun data =>
  if (queue.rows data).any (queue.clashes item) then .error (.integrity queue.constraint)
  else .ok ((),queue.put (queue.rows data ++ [item]) data)

/- The item that is there instead; without one the constraint is raised. -/
def instead (found : ρ → Bool) : StoreError → Call (Option ρ)
  | .integrity message => do
    match ← query fun data => (queue.rows data).find? found with
    | none => raise (.integrity message)
    | some existing => pure (some existing)
  | error => raise error

def inserted (item : ρ) : Call (Option ρ) := do
  insert queue item
  commit
  pure none

def reported (item : ρ) : Option ρ → Call (ρ × Bool)
  | some existing => pure (existing,false)
  | none => do
    let stored ← getItem queue (queue.id item)
    pure (stored,true)

def enqueue (item : ρ) (found : ρ → Bool) : Call (ρ × Bool) := do
  reported queue item (← handling (inserted queue item) (instead queue found))

def claimRows (ready : ρ → Bool) (le : ρ → ρ → Bool) (set : ρ → ρ) (limit : Nat) : Call (List ρ) := do
  let found ← query fun data => (((queue.rows data).filter ready).insertionSort (le · ·)).take limit
  if found.isEmpty then do
    commit
    pure []
  else do
    let itemIds := found.map queue.id
    execute fun data => .ok ((),queue.put (update (itemIds.contains <| queue.id ·) set (queue.rows data)) data)
    let claimed ← query fun data => ((queue.rows data).filter (itemIds.contains <| queue.id ·)).insertionSort (le · ·)
    commit
    pure claimed

/- `if conn.in_transaction`. -/
def commitOpen : Call Unit := do
  if ← inspect (·.opened.isSome) then commit
  else pure ()

def claim (ready : ρ → Bool) (le : ρ → ρ → Bool) (set : ρ → ρ) (limit : Nat) : Call (List ρ) := do
  commitOpen
  beginImmediate (.operational "cannot start a transaction within a transaction")
  rollingBack (claimRows queue ready le set limit)

def change (itemId : String) (selects : ρ → Bool) (set : ρ → ρ) (missing : StoreError) : Call ρ := do
  changing (fun data => ((queue.rows data).countP selects,queue.put (update selects set (queue.rows data)) data)) missing
  getItem queue itemId

end

/- `work_items`. -/

def workItems : Queue WorkItem where
  rows := (·.workItems)
  put rows data := { data with workItems := rows }
  id := (·.id)
  clashes a b := a.id == b.id || a.idempotencyKey.isSome && a.idempotencyKey == b.idempotencyKey
  constraint := "UNIQUE constraint failed: work_items"
  missing itemId := .valueError ("Work item " ++ itemId ++ " was not found")

def notRunning (itemId : String) : StoreError := .valueError ("Work item " ++ itemId ++ " is not running")

def isRunning (itemId : String) (item : WorkItem) : Bool := item.id == itemId && item.status == "running"

/- `*` stands for every workspace. -/
def inWorkspace (workspaceId stored : Option String) : Bool := workspaceId == some "*" || stored == workspaceId

def isExpired (now : Int) (status : String) (leaseExpiresAt : Option Int) : Bool :=
  status == "running" && leaseExpiresAt.any (· ≤ now)

def isReady (families : List String) (lane : String) (workspaceId : Option String) (now : Int) (item : WorkItem) : Bool :=
  families.contains item.familyKey && item.executionLane == lane &&
    ((item.status == "pending" || item.status == "deferred") && item.availableAt ≤ now ||
      isExpired now item.status item.leaseExpiresAt) && inWorkspace workspaceId item.workspaceId

def claimLe (a b : WorkItem) : Bool := a.priority < b.priority || a.priority == b.priority && a.createdAt ≤ b.createdAt

structure Lease where
  owner : String
  now : Int
  ttlSeconds : Int

def leased (lease : Lease) (item : WorkItem) : WorkItem := { item with
  status := "running", attemptCount := item.attemptCount + 1, updatedAt := lease.now, claimedAt := some lease.now
  leaseOwner := some lease.owner, leaseExpiresAt := some (lease.now + lease.ttlSeconds), lastError := none }

structure WorkRequest where
  familyKey : String
  executionLane : String
  payloadJson : String
  workspaceId : Option String
  priority : Int
  availableAt : Option Int
  idempotencyKey : Option String

def newItem (now : Moment StoreError) (request : WorkRequest) : WorkItem :=
  ⟨now.uuid,request.familyKey,request.executionLane,request.workspaceId,request.payloadJson,"pending",request.priority,0,
    request.availableAt.getD now.time,now.time,now.time,none,none,none,none,request.idempotencyKey,none⟩

def enqueueUnique (request : WorkRequest) : Call (WorkItem × Bool) := do
  let now ← observe
  enqueue workItems (newItem now request) fun item =>
    request.idempotencyKey.isSome && item.idempotencyKey == request.idempotencyKey

def badLimit : StoreError := .valueError "limit must be at least 1"

def claimBatch (familyKey lane : String) (lease : Lease) (limit : Nat) (workspaceId : Option String) :
    Call (List WorkItem) :=
  if limit = 0 then raise badLimit
  else claim workItems (isReady [familyKey] lane workspaceId lease.now) claimLe (leased lease) limit

def claimCompatibleBatch (familyKeys : List String) (lane : String) (lease : Lease) (limit : Nat)
    (workspaceId : Option String) : Call (List WorkItem) :=
  let families := familyKeys.filter (· != "")
  if families.isEmpty then raise (.valueError "family_keys must include at least one family")
  else if limit = 0 then raise badLimit
  else claim workItems (isReady families lane workspaceId lease.now) claimLe (leased lease) limit

def heartbeatItem (itemId : String) (lease : Lease) : Call WorkItem :=
  change workItems itemId (fun item => isRunning itemId item && item.leaseOwner == some lease.owner)
    (fun item => { item with updatedAt := lease.now, leaseExpiresAt := some (lease.now + lease.ttlSeconds) })
    (.valueError ("Work item " ++ itemId ++ " is not running for lease owner " ++ lease.owner))

def completeItem (itemId : String) (now : Int) : Call WorkItem :=
  change workItems itemId (isRunning itemId) (fun item => { item with
    status := "completed", updatedAt := now, completedAt := some now, leaseOwner := none, leaseExpiresAt := none
    lastError := none }) (notRunning itemId)

def deferItem (itemId error : String) (retryDelaySeconds now : Int) : Call WorkItem :=
  change workItems itemId (isRunning itemId) (fun item => { item with
    status := "deferred", updatedAt := now, availableAt := now + max retryDelaySeconds 0, leaseOwner := none
    leaseExpiresAt := none, lastError := some error }) (notRunning itemId)

def releaseItem (itemId : String) (now : Int) : Call WorkItem :=
  change workItems itemId (isRunning itemId) (fun item => { item with
    status := "pending", updatedAt := now, leaseOwner := none, leaseExpiresAt := none }) (notRunning itemId)

/- `embedding_repair_queue`. -/
namespace Repair

def repairs : Queue RepairItem where
  rows := (·.repairs)
  put rows data := { data with repairs := rows }
  id := (·.id)
  clashes a b := a.id == b.id || a.memoryId == b.memoryId && a.modelName == b.modelName &&
    a.memoryUpdatedAt == b.memoryUpdatedAt
  constraint := "UNIQUE constraint failed: embedding_repair_queue"
  missing itemId := .valueError ("Embedding repair item " ++ itemId ++ " was not found")

def notRunning (itemId : String) : StoreError := .valueError ("Embedding repair item " ++ itemId ++ " is not running")

def isRunning (itemId : String) (item : RepairItem) : Bool := item.id == itemId && item.status == "running"

def isReady (workspaceId : Option String) (now : Int) (item : RepairItem) : Bool :=
  (item.status == "pending" && item.availableAt ≤ now || isExpired now item.status item.leaseExpiresAt) &&
    inWorkspace workspaceId item.workspaceId

def leased (lease : Lease) (item : RepairItem) : RepairItem := { item with
  status := "running", attemptCount := item.attemptCount + 1, updatedAt := lease.now, claimedAt := some lease.now
  leaseOwner := some lease.owner, leaseExpiresAt := some (lease.now + lease.ttlSeconds), lastError := none }

structure RepairRequest where
  memoryId : String
  modelName : String
  memoryUpdatedAt : String
  workspaceId : Option String
  availableAt : Option Int

def newItem (now : Moment StoreError) (request : RepairRequest) : RepairItem :=
  ⟨now.uuid,request.memoryId,request.workspaceId,request.modelName,request.memoryUpdatedAt,"pending",0,
    request.availableAt.getD now.time,now.time,now.time,none,none,none,none,none⟩

def enqueueUnique (request : RepairRequest) : Call (RepairItem × Bool) := do
  let now ← observe
  enqueue repairs (newItem now request) fun item => item.memoryId == request.memoryId &&
    item.modelName == request.modelName && item.memoryUpdatedAt == request.memoryUpdatedAt

def claimBatch (lease : Lease) (limit : Nat) (workspaceId : Option String) : Call (List RepairItem) :=
  if limit = 0 then raise badLimit
  else claim repairs (isReady workspaceId lease.now) (fun a b => a.createdAt ≤ b.createdAt) (leased lease) limit

def completeItem (itemId : String) (now : Int) : Call RepairItem :=
  change repairs itemId (isRunning itemId) (fun item => { item with
    status := "completed", updatedAt := now, completedAt := some now, leaseOwner := none, leaseExpiresAt := none
    lastError := none }) (notRunning itemId)

def releaseItem (itemId : String) (now : Int) (error : Option String) : Call RepairItem :=
  change repairs itemId (isRunning itemId) (fun item => { item with
    status := "pending", updatedAt := now, leaseOwner := none, leaseExpiresAt := none, lastError := error })
    (notRunning itemId)

def prunable (before : Int) (limit : Nat) (data : Queues) : List RepairItem :=
  (((data.repairs).filter fun item => item.status == "completed" && item.completedAt.any (· ≤ before)).insertionSort
    fun a b => a.completedAt.getD 0 ≤ b.completedAt.getD 0).take limit

/- The reply is `cursor.rowcount`. -/
def deleteItems (itemIds : List String) : Call Nat := execute fun data =>
  .ok (data.repairs.countP (itemIds.contains ·.id),
    { data with repairs := data.repairs.filter (!itemIds.contains ·.id) })

def pruneCompleted (olderThanSeconds now : Int) (limit : Nat) : Call Nat :=
  if limit = 0 then pure 0
  else do
    let found ← query (prunable (now - max olderThanSeconds 0) limit)
    if found.isEmpty then pure 0
    else do
      let rowcount ← deleteItems (found.map (·.id))
      commit
      pure rowcount

end Repair

inductive Operation where
  | enqueueUnique (request : WorkRequest)
  | claimBatch (familyKey lane : String) (lease : Lease) (limit : Nat) (workspaceId : Option String)
  | claimCompatibleBatch (familyKeys : List String) (lane : String) (lease : Lease) (limit : Nat)
      (workspaceId : Option String)
  | heartbeatItem (itemId : String) (lease : Lease)
  | completeItem (itemId : String) (now : Int)
  | deferItem (itemId error : String) (retryDelaySeconds now : Int)
  | releaseItem (itemId : String) (now : Int)
  | enqueueRepair (request : Repair.RepairRequest)
  | claimRepairs (lease : Lease) (limit : Nat) (workspaceId : Option String)
  | completeRepair (itemId : String) (now : Int)
  | releaseRepair (itemId : String) (now : Int) (error : Option String)
  | pruneRepairs (olderThanSeconds now : Int) (limit : Nat)

abbrev Answer : Operation → Type
  | .enqueueUnique _ => WorkItem × Bool
  | .claimBatch .. | .claimCompatibleBatch .. => List WorkItem
  | .heartbeatItem .. | .completeItem .. | .deferItem .. | .releaseItem .. => WorkItem
  | .enqueueRepair _ => RepairItem × Bool
  | .claimRepairs .. => List RepairItem
  | .completeRepair .. | .releaseRepair .. => RepairItem
  | .pruneRepairs .. => Nat

def perform : (operation : Operation) → Call (Answer operation)
  | .enqueueUnique request => enqueueUnique request
  | .claimBatch familyKey lane lease limit workspaceId => claimBatch familyKey lane lease limit workspaceId
  | .claimCompatibleBatch familyKeys lane lease limit workspaceId =>
    claimCompatibleBatch familyKeys lane lease limit workspaceId
  | .heartbeatItem itemId lease => heartbeatItem itemId lease
  | .completeItem itemId now => completeItem itemId now
  | .deferItem itemId error retryDelaySeconds now => deferItem itemId error retryDelaySeconds now
  | .releaseItem itemId now => releaseItem itemId now
  | .enqueueRepair request => Repair.enqueueUnique request
  | .claimRepairs lease limit workspaceId => Repair.claimBatch lease limit workspaceId
  | .completeRepair itemId now => Repair.completeItem itemId now
  | .releaseRepair itemId now error => Repair.releaseItem itemId now error
  | .pruneRepairs olderThanSeconds now limit => Repair.pruneCompleted olderThanSeconds now limit

end McpMemory.Work
