import Mathlib.Data.List.Sort
import McpMemory.Lib.Interleave
import McpMemory.Lib.Table
import McpMemory.Lib.Text

/-! The `system1_journal` table and the operations of `System1Journal`, statement by
statement. `claim_pending` is one BEGIN IMMEDIATE transaction; every other operation
selects ids in autocommit mode and writes in a later transaction, so the ids may be
stale by then. Ids come from AUTOINCREMENT and are never given out twice.

Not here: `delete_claims` and `delete_claimed_entry_ids`, which nothing calls, and
the retention delete of processed and archived rows in the sweeper. -/
namespace McpMemory.Journal
open Interleave Table

inductive Status where
  | pending
  | claimed
  | recoverable
  | processed
  | archived
  deriving DecidableEq, Repr

structure Entry where
  id : Int
  content : String
  workspaceId : Option String
  timestamp : Int
  status : Status
  claimTaskId : Option String
  claimedAt : Option Int
  recoverableUntil : Option Int
  deriving DecidableEq, Repr

/- `sequence` is the last id that AUTOINCREMENT gave out. -/
structure Store where
  entries : List Entry
  sequence : Int
  deriving DecidableEq, Repr

def empty : Store := ⟨[],0⟩

inductive Workspace where
  | all
  | unscoped
  | only (workspaceId : String)
  deriving DecidableEq, Repr

def Workspace.selects : Workspace → Option String → Bool
  | .all,_ => true
  | .unscoped,workspaceId => workspaceId.isNone
  | .only wanted,workspaceId => workspaceId == some wanted

inductive JournalError where
  | valueError (message : String)
  | runtimeError (message : String)
  deriving DecidableEq, Repr

def recoverableRetentionSeconds : Int := 48 * 60 * 60

def oldestFirst (entries : List Entry) : List Entry :=
  entries.insertionSort fun a b => a.timestamp ≤ b.timestamp

/- A negative LIMIT is no limit. -/
def limited (limit : Int) (entries : List Entry) : List Entry :=
  if limit < 0 then entries else entries.take limit.toNat

def sameThought (content : String) (workspaceId : Option String) (timestamp : Int) (entry : Entry) :
    Bool := entry.content == content && entry.workspaceId == workspaceId && entry.timestamp == timestamp

def newEntry (content : String) (workspaceId : Option String) (timestamp : Int) (store : Store) : Entry :=
  ⟨store.sequence + 1,content,workspaceId,timestamp,.pending,none,none,none⟩

def insertEntry (content : String) (workspaceId : Option String) (timestamp : Int) (store : Store) :
    Store := ⟨store.entries ++ [newEntry content workspaceId timestamp store],store.sequence + 1⟩

def pendingRows (limit : Int) (workspace : Workspace) (store : Store) : List Entry :=
  limited limit (oldestFirst (store.entries.filter fun entry => entry.status == .pending &&
    workspace.selects entry.workspaceId))

def isPendingIn (ids : List Int) (entry : Entry) : Bool :=
  ids.contains entry.id && entry.status == .pending

def claimSet (taskId : String) (now : Int) (entry : Entry) : Entry :=
  { entry with status := .claimed, claimTaskId := some (Text.strip taskId), claimedAt := some now }

/- The write of `claim_pending`, which gives back the rows as it selected them. -/
def claimPending (taskId : String) (limit : Int) (workspace : Workspace) (now : Int) (store : Store) :
    Except JournalError (List Entry × Store) :=
  let rows := pendingRows limit workspace store
  let ids := rows.map (·.id)
  if rows.isEmpty then .ok ([],store)
  else if store.entries.countP (isPendingIn ids) = ids.length then
    .ok (rows,{ store with entries := update (isPendingIn ids) (claimSet taskId now) store.entries })
  else .error (.runtimeError "failed to claim journal entries atomically")

/- The two ways a claim ends: back to pending, or recoverable until a moment. -/
inductive Unclaim where
  | release
  | moveToRecoverable (recoverableUntil : Int)
  deriving DecidableEq, Repr

/- `time.time() + RECOVERABLE_RETENTION_SECONDS if recoverable_until is None else …` -/
def moveToRecoverable (recoverableUntil : Option Int) (now : Int) : Unclaim :=
  .moveToRecoverable (recoverableUntil.getD (now + recoverableRetentionSeconds))

def Unclaim.set (u : Unclaim) (entry : Entry) : Entry :=
  match u with
  | .release => { entry with
      status := .pending, claimTaskId := none, claimedAt := none, recoverableUntil := none }
  | .moveToRecoverable until' => { entry with
      status := .recoverable, claimTaskId := none, claimedAt := none, recoverableUntil := some until' }

def claimedBy (taskId : String) (entry : Entry) : Bool :=
  entry.status == .claimed && entry.claimTaskId == some (Text.strip taskId)

/- `_normalize_claimed_entry_ids`; without ids it selects every claim of the task. -/
def normalizeClaimedEntryIds (taskId : String) (entryIds : Option (List Int)) (store : Store) : List Int :=
  if Text.strip taskId = "" then []
  else match entryIds with
  | none => (oldestFirst (store.entries.filter (claimedBy taskId))).map (·.id)
  | some ids => (oldestFirst (store.entries.filter fun entry => claimedBy taskId entry &&
      (ids.filter (· > 0)).contains entry.id)).map (·.id)

def isClaimedIn (taskId : String) (ids : List Int) (entry : Entry) : Bool :=
  ids.contains entry.id && claimedBy taskId entry

def isOrphan (running : String → Bool) (entry : Entry) : Bool :=
  entry.status == .claimed && match entry.claimTaskId with
    | none => true
    | some taskId => !running taskId

def isClaimedAt (ids : List Int) (entry : Entry) : Bool :=
  ids.contains entry.id && entry.status == .claimed

def isExpired (now : Int) (entry : Entry) : Bool :=
  entry.status == .recoverable && match entry.recoverableUntil with
    | none => false
    | some until' => until' ≤ now

def isRecoverableIn (ids : List Int) (entry : Entry) : Bool :=
  ids.contains entry.id && entry.status == .recoverable

def purge (ids : List Int) (store : Store) : Store :=
  { store with entries := store.entries.filter fun entry => !isRecoverableIn ids entry }

/- `mark_processed` takes pending entries, `mark_archived` processed ones. -/
inductive Mark where
  | processed
  | archived
  deriving DecidableEq, Repr

def Mark.from : Mark → Status
  | .processed => .pending
  | .archived => .processed

def Mark.set (m : Mark) (entry : Entry) : Entry := { entry with
  status := match m with
    | .processed => .processed
    | .archived => .archived
  claimTaskId := none
  claimedAt := none
  recoverableUntil := none }

def isMarkable (m : Mark) (ids : List Int) (entry : Entry) : Bool :=
  ids.contains entry.id && entry.status == m.from

inductive Op where
  | record (content : String) (workspaceId : Option String) (timestamp : Int)
  | claimPending (taskId : String) (limit : Int) (workspace : Workspace) (now : Int)
  | unclaimAll (u : Unclaim) (taskId : String)
  | unclaim (u : Unclaim) (taskId : String) (entryIds : List Int)
  | releaseOrphanedClaims (running : String → Bool)
  | purgeExpiredRecoverable (now : Int)
  | mark (m : Mark) (entryIds : List Int)

inductive Answer where
  | entry (entry : Entry)
  | entries (entries : List Entry)
  | ids (ids : List Int)
  | count (count : Nat)
  deriving Repr

inductive Call where
  | record (content : String) (workspaceId : Option String) (timestamp : Int)
  | inserting (content : String) (workspaceId : Option String) (timestamp : Int)
  | claimPending (taskId : String) (limit : Int) (workspace : Workspace) (now : Int)
  | unclaimAll (u : Unclaim) (taskId : String)
  | unclaim (u : Unclaim) (taskId : String) (entryIds : List Int)
  | unclaiming (u : Unclaim) (taskId : String) (ids : List Int)
  | releaseOrphanedClaims (running : String → Bool)
  | releasingOrphans (ids : List Int)
  | purgeExpiredRecoverable (now : Int)
  | purging (ids : List Int)
  | mark (m : Mark) (entryIds : List Int)
  | answered (answer : Except JournalError Answer)

def enter : Op → Call
  | .record content workspaceId timestamp => .record content workspaceId timestamp
  | .claimPending taskId limit workspace now => .claimPending taskId limit workspace now
  | .unclaimAll u taskId => .unclaimAll u taskId
  | .unclaim u taskId entryIds => .unclaim u taskId entryIds
  | .releaseOrphanedClaims running => .releaseOrphanedClaims running
  | .purgeExpiredRecoverable now => .purgeExpiredRecoverable now
  | .mark m entryIds => .mark m entryIds

/- History, never read by a call. -/
inductive Emitted where
  | recorded (entry : Entry)
  | moved (entryId : Int)
  | purged (entryId : Int)
  deriving DecidableEq, Repr

def Unclaim.emits (u : Unclaim) (ids : List Int) : List Emitted :=
  match u with
  | .release => []
  | .moveToRecoverable _ => ids.map .moved

abbrev After := Call × Store × List Emitted

def answer (answer : Answer) (store : Store) : After := (.answered (.ok answer),store,[])

def selectedIds (selected : Entry → Bool) (store : Store) : List Int :=
  (store.entries.filter selected).map (·.id)

def step (call : Call) (store : Store) : After :=
  match call with
  | .record content workspaceId timestamp =>
    if Text.strip content = "" then
      (.answered (.error (.valueError "Journal content cannot be empty")),store,[])
    else match store.entries.find? (sameThought (Text.strip content) workspaceId timestamp) with
    | some existing => answer (.entry existing) store
    | none => (.inserting (Text.strip content) workspaceId timestamp,store,[])
  | .inserting content workspaceId timestamp =>
    let entry := newEntry content workspaceId timestamp store
    (.answered (.ok (.entry entry)),insertEntry content workspaceId timestamp store,[.recorded entry])
  | .claimPending taskId limit workspace now =>
    if Text.strip taskId = "" then (.answered (.error (.valueError "task_id is required")),store,[])
    else match claimPending taskId limit workspace now store with
    | .error error => (.answered (.error error),store,[])
    | .ok (rows,after) => answer (.entries (rows.map fun row => { row with status := .claimed })) after
  | .unclaimAll u taskId =>
    if Text.strip taskId = "" then answer (.ids []) store
    else (.unclaim u taskId (normalizeClaimedEntryIds taskId none store),store,[])
  | .unclaim u taskId entryIds =>
    let ids := normalizeClaimedEntryIds taskId (some entryIds) store
    if ids.isEmpty then answer (.ids []) store else (.unclaiming u taskId ids,store,[])
  | .unclaiming u taskId ids =>
    (.answered (.ok (.ids ids)),
      { store with entries := update (isClaimedIn taskId ids) u.set store.entries },
      u.emits (selectedIds (isClaimedIn taskId ids) store))
  | .releaseOrphanedClaims running =>
    let ids := (oldestFirst (store.entries.filter (isOrphan running))).map (·.id)
    if ids.isEmpty then answer (.ids []) store else (.releasingOrphans ids,store,[])
  | .releasingOrphans ids =>
    answer (.ids ids)
      { store with entries := update (isClaimedAt ids) Unclaim.release.set store.entries }
  | .purgeExpiredRecoverable now =>
    let ids := (oldestFirst (store.entries.filter (isExpired now))).map (·.id)
    if ids.isEmpty then answer (.ids []) store else (.purging ids,store,[])
  | .purging ids =>
    (.answered (.ok (.ids ids)),purge ids store,
      (selectedIds (isRecoverableIn ids) store).map .purged)
  | .mark m entryIds =>
    if entryIds.isEmpty then answer (.count 0) store
    else answer (.count (store.entries.countP (isMarkable m entryIds)))
      { store with entries := update (isMarkable m entryIds) m.set store.entries }
  | .answered _ => (call,store,[])

def journal : Machine Op Call Store Emitted := ⟨enter,step⟩

abbrev Schedule := List (Event Op)

/- Every reachable state: the empty table, then any calls advanced in any order. -/
def reached (events : Schedule) : World Call Store Emitted := journal.run (idle empty) events

end McpMemory.Journal
