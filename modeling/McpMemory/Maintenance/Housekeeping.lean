import McpMemory.Memory.Database

/-! `storage/sqlite_maintenance_housekeeping.py` and the tasks over it, as far as they change
the status of a memory or take one away. Each runs in one transaction, so one that fails
changes nothing. -/
namespace McpMemory.Maintenance
open Memory Text Table
open Curation (Protection)

/- A plan that was not updated since `cutoff`; the workspace narrows the search. -/
def isStalePlan (cutoff : String) (workspaceId : Option String) (t : Tables) (row : MemoryRow) : Bool :=
  row.type == "plan" && row.status == "active" && row.updatedAt < cutoff &&
    workspaceId.all fun workspaceId => t.workspaces.contains (row.id,workspaceId)

def markStalePlans (cutoff : String) (workspaceId : Option String) (t : Tables) : Tables :=
  { t with memories := update (isStalePlan cutoff workspaceId t) (fun row => { row with status := "stale" }) t.memories }

structure ExternalLink where
  memoryId : String
  status : String
  targetId : String
  workspaceId : Option String
  deriving DecidableEq, Repr

/- `target_id LIKE 'ext:%'`, which takes the letters in either case. -/
def likeExternal (targetId : String) : Bool := (targetId.toList.take 4).map Char.toLower == "ext:".toList

def workspacesOf (t : Tables) (memoryId : String) : List (Option String) :=
  let found := (t.workspaces.filter (·.1 == memoryId)).map (some ·.2)
  if found.isEmpty then [none] else found

def listExternalLinks (t : Tables) : List ExternalLink :=
  t.memories.flatMap fun row =>
    (t.links.filter fun link => link.sourceId == row.id && likeExternal link.targetId).flatMap fun link =>
      (workspacesOf t row.id).map fun workspaceId =>
        ⟨row.id,row.status,String.ofList (link.targetId.toList.drop 4),workspaceId⟩

def updateMemoryStatuses (memoryIds : List String) (status : String) (currentStatus : Option String) (t : Tables) :
    Tables :=
  let isNamed (row : MemoryRow) := memoryIds.contains row.id && currentStatus.all (· == row.status)
  if memoryIds.isEmpty then t
  else { t with memories := update isNamed (fun row => { row with status := status }) t.memories }

/- `handle_fact_checker_task`; `present` says whether the file of a link is there. -/
def factCheck (present : ExternalLink → Bool) (t : Tables) : Tables :=
  let links := listExternalLinks t
  let degraded := (links.filter fun link => !present link).map (·.memoryId)
  let healthy := (links.filter fun link => present link && link.status == "degraded").map (·.memoryId)
  updateMemoryStatuses (healthy.filter (!degraded.contains ·)) "active" (some "degraded")
    (updateMemoryStatuses degraded "degraded" none t)

/- Archived before `cutoff`. -/
def isExpired (cutoff : String) (row : MemoryRow) : Bool :=
  row.status == "archived" && row.archivedAt.any (· < cutoff)

def isProtected (now : String) (protections : List Protection) (memoryId : String) : Bool :=
  protections.any fun protection => protection.memoryId == memoryId && protection.expiresAt.all (now < ·)

def isLinked (t : Tables) (memoryId : String) : Bool :=
  t.links.any fun link => (link.sourceId == memoryId || link.targetId == memoryId) && link.linkType != "SUPERSEDES"

structure Sweep where
  cutoff : String
  now : String
  batchSize : Nat
  delete : Bool

def isEligible (sweep : Sweep) (database : Database) (memoryId : String) : Bool :=
  !isProtected sweep.now database.protections memoryId && !isLinked database.memory memoryId

/- The guarded DELETE of one memory and what goes with it. -/
def deleteArchived (sweep : Sweep) (database : Database) (memoryId : String) : Database :=
  let t := database.memory
  if t.memories.any (fun row => row.id == memoryId && isExpired sweep.cutoff row) &&
      isEligible sweep database memoryId then
    { database with
      memory := { t with
        memories := t.memories.filter (·.id != memoryId)
        workspaces := t.workspaces.filter (·.1 != memoryId)
        memoryTags := t.memoryTags.filter (·.1 != memoryId)
        links := t.links.filter fun link => !(link.sourceId == memoryId || link.targetId == memoryId)
        searchDocuments := t.searchDocuments.filter (·.memoryId != memoryId) }
      protections := database.protections.filter (·.memoryId != memoryId) }
  else database

def expiredLe (a b : MemoryRow) : Bool :=
  let left := a.archivedAt.getD ""
  let right := b.archivedAt.getD ""
  left < right || left == right && a.id ≤ b.id

def gcArchivedMemories (sweep : Sweep) (database : Database) : Database :=
  let rows := ((database.memory.memories.filter (isExpired sweep.cutoff)).insertionSort (expiredLe · ·)).take
    sweep.batchSize
  let eligible := (rows.map (·.id)).filter (isEligible sweep database)
  if sweep.delete then eligible.foldl (deleteArchived sweep) database else database

end McpMemory.Maintenance
