import Mathlib.Data.List.Dedup
import Mathlib.Data.List.Sort
import McpMemory.Lib.Json
import McpMemory.Lib.Table

/-! The memory tables and the SQL statements that the ingress and the curation
transactions run on them. A statement either fails as a whole on a constraint or gives
its new tables. Foreign keys are on: a mapping needs its memory, and deleting a memory
deletes its mappings and its outgoing links.

Not here: the read and access columns of `memories`, the id columns of the revision
tables, the lease columns of the repair queue and the search-epoch counters that
triggers keep; nothing modelled reads them. -/
namespace McpMemory.Memory
open Table

structure MemoryRow where
  id : String
  memoryRef : Option Int
  title : String
  content : String
  summary : Option String
  type : String
  status : String
  createdAt : String
  updatedAt : String
  archivedAt : Option String
  metadata : Json.Object

/- A row with its workspaces and tags, as `_hydrate_record` gives it. -/
structure MemoryRecord extends MemoryRow where
  workspaceIds : List String
  tags : List String

structure Tag where
  id : Int
  name : String
  deriving DecidableEq, Repr

structure MemoryLink where
  sourceId : String
  targetId : String
  linkType : String
  context : String
  deriving DecidableEq, Repr

structure SearchDocument where
  memoryId : String
  title : String
  summary : String
  content : String
  tags : String
  deriving DecidableEq, Repr

structure RepairIntent where
  id : String
  memoryId : String
  workspaceId : Option String
  modelName : String
  memoryUpdatedAt : String
  status : String
  attemptCount : Nat
  availableAt : Int
  createdAt : Int
  updatedAt : Int
  deriving DecidableEq, Repr

structure MutationEvent where
  id : String
  operation : String
  actorKind : String
  family : Option String
  taskId : Option String
  curationRunId : Option String
  planId : Option String
  actionId : Option String
  policyVersion : Option String
  status : String
  restoresEventId : Option String
  idempotencyKey : Option String
  createdAt : String
  deriving DecidableEq, Repr

structure RecordRevision where
  eventId : String
  memoryId : String
  role : String
  beforeExists : Bool
  beforeSnapshot : Option String
  afterExists : Bool
  afterSnapshot : Option String
  beforeToken : Option String
  afterToken : Option String
  deriving DecidableEq, Repr

structure LinkRevision where
  eventId : String
  sourceId : String
  targetId : String
  linkType : String
  context : Option String
  beforeExists : Bool
  afterExists : Bool
  deriving DecidableEq, Repr

structure Tables where
  memories : List MemoryRow
  workspaces : List (String × String)
  tags : List Tag
  tagSequence : Int
  memoryTags : List (String × Int)
  links : List MemoryLink
  searchDocuments : List SearchDocument
  repairQueue : List RepairIntent
  events : List MutationEvent
  recordRevisions : List RecordRevision
  linkRevisions : List LinkRevision

def empty : Tables := ⟨[],[],[],0,[],[],[],[],[],[],[]⟩

/- `sqlite3.IntegrityError` with its message. -/
structure IntegrityError where
  message : String
  deriving DecidableEq, Repr

def unique (columns : String) : IntegrityError := ⟨"UNIQUE constraint failed: " ++ columns⟩

def foreignKey : IntegrityError := ⟨"FOREIGN KEY constraint failed"⟩

abbrev Statement (α : Type) := Tables → Except IntegrityError (α × Tables)

def read (query : Tables → α) : Statement α := fun t => .ok (query t,t)

def run (effect : Tables → Tables) : Statement Unit := fun t => .ok ((),effect t)

/- Text is ordered as its UTF-8 bytes are, which is the order of its code points. -/
def sorted (values : List String) : List String := values.insertionSort (· ≤ ·)

/- `sorted(set(values), key=utf-8)`. -/
def sortedSet (values : List String) : List String := sorted values.dedup

theorem memSortedSet {values : List String} {value} : value ∈ sortedSet values ↔ value ∈ values := by
  unfold sortedSet sorted
  rw [List.mem_insertionSort,List.mem_dedup]

def Tables.has (t : Tables) (memoryId : String) : Bool := t.memories.any (·.id == memoryId)

def selectRow (memoryId : String) (t : Tables) : Option MemoryRow :=
  t.memories.find? (·.id == memoryId)

def hydrateRecord (t : Tables) (row : MemoryRow) : MemoryRecord := { row with
  workspaceIds := sorted ((t.workspaces.filter (·.1 == row.id)).map (·.2))
  tags := sorted (t.tags.filterMap fun tag =>
    if t.memoryTags.contains (row.id,tag.id) then some tag.name else none) }

def recordById (memoryId : String) (t : Tables) : Option MemoryRecord :=
  (selectRow memoryId t).map (hydrateRecord t)

/- `_read_records`: a dictionary in the order of the ids. -/
def readRecords (memoryIds : List String) (t : Tables) : List (String × MemoryRecord) :=
  memoryIds.filterMap fun memoryId => (recordById memoryId t).map (memoryId,·)

/- `SELECT COALESCE(MAX(memory_ref), 0) + 1 FROM memories`. -/
def nextMemoryRef (t : Tables) : Int :=
  ((t.memories.filterMap (·.memoryRef)).max?.getD 0) + 1

def insertMemory (row : MemoryRow) : Statement Unit := fun t =>
  if t.has row.id then .error (unique "memories.id")
  else if row.memoryRef.isSome && t.memories.any (·.memoryRef == row.memoryRef) then
    .error (unique "memories.memory_ref")
  else .ok ((),{ t with memories := t.memories ++ [row] })

def updateMemory (memoryId : String) (set : MemoryRow → MemoryRow) : Statement Unit := run fun t =>
  { t with memories := update (·.id == memoryId) set t.memories }

def deleteMemory (memoryId : String) : Statement Unit := run fun t => { t with
  memories := t.memories.filter (·.id != memoryId)
  workspaces := t.workspaces.filter (·.1 != memoryId)
  memoryTags := t.memoryTags.filter (·.1 != memoryId)
  links := t.links.filter (·.sourceId != memoryId) }

def deleteWorkspaces (memoryId : String) : Statement Unit := run fun t =>
  { t with workspaces := t.workspaces.filter (·.1 != memoryId) }

def insertWorkspace (memoryId workspaceId : String) : Statement Unit := fun t =>
  if t.workspaces.contains (memoryId,workspaceId) then
    .error (unique "memory_workspaces.memory_id, memory_workspaces.workspace_id")
  else if !t.has memoryId then .error foreignKey
  else .ok ((),{ t with workspaces := t.workspaces ++ [(memoryId,workspaceId)] })

def deleteMemoryTags (memoryId : String) : Statement Unit := run fun t =>
  { t with memoryTags := t.memoryTags.filter (·.1 != memoryId) }

/- `INSERT OR IGNORE INTO tags`. -/
def insertTag (name : String) : Statement Unit := run fun t =>
  if t.tags.any (·.name == name) then t
  else { t with tags := t.tags ++ [⟨t.tagSequence + 1,name⟩], tagSequence := t.tagSequence + 1 }

def selectTagId (name : String) (t : Tables) : Option Int :=
  (t.tags.find? (·.name == name)).map (·.id)

def insertMemoryTag (memoryId : String) (tagId : Int) : Statement Unit := fun t =>
  if t.memoryTags.contains (memoryId,tagId) then
    .error (unique "memory_tags.memory_id, memory_tags.tag_id")
  else if !t.has memoryId || !t.tags.any (·.id == tagId) then .error foreignKey
  else .ok ((),{ t with memoryTags := t.memoryTags ++ [(memoryId,tagId)] })

def deleteSearchDocuments (memoryId : String) : Statement Unit := run fun t =>
  { t with searchDocuments := t.searchDocuments.filter (·.memoryId != memoryId) }

def insertSearchDocument (document : SearchDocument) : Statement Unit := run fun t =>
  { t with searchDocuments := t.searchDocuments ++ [document] }

def sameIntent (a b : RepairIntent) : Bool :=
  a.id == b.id || a.memoryId == b.memoryId && a.modelName == b.modelName &&
    a.memoryUpdatedAt == b.memoryUpdatedAt

/- `INSERT OR IGNORE INTO embedding_repair_queue`. -/
def insertRepairIntent (intent : RepairIntent) : Statement Unit := run fun t =>
  if t.repairQueue.any (sameIntent intent) then t
  else { t with repairQueue := t.repairQueue ++ [intent] }

def insertEvent (event : MutationEvent) : Statement Unit := fun t =>
  if t.events.any (·.id == event.id) then .error (unique "memory_mutation_events.id")
  else if event.curationRunId.isSome && event.actionId.isSome && t.events.any (fun other =>
      other.curationRunId == event.curationRunId && other.actionId == event.actionId) then
    .error (unique "memory_mutation_events.curation_run_id, memory_mutation_events.action_id")
  else if event.idempotencyKey.isSome && t.events.any (·.idempotencyKey == event.idempotencyKey) then
    .error (unique "memory_mutation_events.idempotency_key")
  else if event.restoresEventId.isSome && !t.events.any (some ·.id == event.restoresEventId) then
    .error foreignKey
  else .ok ((),{ t with events := t.events ++ [event] })

def insertRecordRevision (revision : RecordRevision) : Statement Unit := fun t =>
  if t.recordRevisions.any (fun other => other.eventId == revision.eventId &&
      other.memoryId == revision.memoryId && other.role == revision.role) then
    .error (unique ("memory_record_revisions.event_id, memory_record_revisions.memory_id, " ++
      "memory_record_revisions.role"))
  else if !t.events.any (·.id == revision.eventId) then .error foreignKey
  else .ok ((),{ t with recordRevisions := t.recordRevisions ++ [revision] })

def insertLinkRevision (revision : LinkRevision) : Statement Unit := fun t =>
  if t.linkRevisions.any (fun other => other.eventId == revision.eventId &&
      other.sourceId == revision.sourceId && other.targetId == revision.targetId &&
      other.linkType == revision.linkType) then
    .error (unique ("memory_link_revisions.event_id, memory_link_revisions.source_id, " ++
      "memory_link_revisions.target_id, memory_link_revisions.link_type"))
  else if !t.events.any (·.id == revision.eventId) then .error foreignKey
  else .ok ((),{ t with linkRevisions := t.linkRevisions ++ [revision] })

def isLink (sourceId targetId linkType : String) (link : MemoryLink) : Bool :=
  link.sourceId == sourceId && link.targetId == targetId && link.linkType == linkType

def selectLink (sourceId targetId linkType : String) (t : Tables) : Option MemoryLink :=
  t.links.find? (isLink sourceId targetId linkType)

/- `INSERT … ON CONFLICT(source_id, target_id, type) DO UPDATE SET context`. -/
def upsertLink (link : MemoryLink) : Statement Unit := fun t =>
  let same := isLink link.sourceId link.targetId link.linkType
  if t.links.any same then
    .ok ((),{ t with links := update same (fun old => { old with context := link.context }) t.links })
  else if !t.has link.sourceId then .error foreignKey
  else .ok ((),{ t with links := t.links ++ [link] })

/- `INSERT OR REPLACE INTO links`. -/
def replaceLink (link : MemoryLink) : Statement Unit := fun t =>
  if !t.has link.sourceId then .error foreignKey
  else .ok ((),{ t with links :=
    (t.links.filter fun old => !isLink link.sourceId link.targetId link.linkType old) ++ [link] })

/- `DELETE FROM links WHERE source_id = ? OR target_id = ?`. -/
def deleteLinksOf (memoryId : String) : Statement Unit := run fun t =>
  { t with links := t.links.filter fun link => !(link.sourceId == memoryId || link.targetId == memoryId) }

/- The reply is `cursor.rowcount`. -/
def deleteLink (sourceId targetId linkType : String) : Statement Nat := fun t =>
  .ok (t.links.countP (isLink sourceId targetId linkType),
    { t with links := t.links.filter fun link => !isLink sourceId targetId linkType link })

end McpMemory.Memory
