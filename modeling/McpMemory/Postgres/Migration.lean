import Mathlib
import McpMemory.Postgres.Repository

/-! `storage/sqlite_to_postgres_migration.py`: the tables of the memories are read from a SQLite
database and imported into PostgreSQL in one transaction, after the schema is there. -/
namespace McpMemory.Postgres
open Memory Table

/- A memory with its read and access columns. -/
structure Row extends MemoryRow where
  readCount : Int
  accessScore : ℚ
  lastAccessedAt : Option String
  lastSurfacedAt : Option String

/- The SQLite tables with their keys: a mapping is that of a memory that is there. -/
structure Source where
  rows : List Row
  workspaces : List (String × String)
  tags : List Tag
  memoryTags : List (String × Int)
  links : List MemoryLink
  keyed : (rows.map (·.id)).Nodup
  placed : ∀ pair ∈ workspaces, ∃ row ∈ rows, row.id = pair.1
  tagged : ∀ pair ∈ memoryTags, ∃ row ∈ rows, row.id = pair.1
  numbered : (tags.map (·.id)).Nodup
  linked : (links.map fun link => (link.sourceId,link.targetId,link.linkType)).Nodup

structure SQLiteSourceMemory where
  id : String
  memoryRef : Option Int
  title : String
  content : String
  summary : Option String
  memoryType : String
  status : String
  createdAt : String
  updatedAt : String
  readCount : Int
  accessScore : ℚ
  lastAccessedAt : Option String
  lastSurfacedAt : Option String
  metadata : Json.Object
  workspaceIds : List String
  tags : List String

structure SQLiteExport where
  memories : List SQLiteSourceMemory
  links : List MemoryLink
  tagNames : List String
  skippedLinks : Nat

def workspacesByMemory (source : Source) (memoryId : String) : List String :=
  (source.workspaces.filter (·.1 == memoryId)).map (·.2)

def tagNameById (source : Source) (tagId : Int) : Option String := (source.tags.find? (·.id == tagId)).map (·.name)

/- A mapping to a tag that is not there is passed over. -/
def tagsByMemory (source : Source) (memoryId : String) : List String :=
  (source.memoryTags.filter (·.1 == memoryId)).filterMap fun pair => tagNameById source pair.2

def sourceMemory (source : Source) (row : Row) : SQLiteSourceMemory where
  id := row.id
  memoryRef := row.memoryRef
  title := row.title
  content := row.content
  summary := row.summary
  memoryType := row.type
  status := row.status
  createdAt := row.createdAt
  updatedAt := row.updatedAt
  readCount := row.readCount
  accessScore := row.accessScore
  lastAccessedAt := row.lastAccessedAt
  lastSurfacedAt := row.lastSurfacedAt
  metadata := row.metadata
  workspaceIds := sortedSet (workspacesByMemory source row.id)
  tags := sortedSet (tagsByMemory source row.id)

/- `ORDER BY created_at ASC, id ASC`. -/
def createdLe (a b : Row) : Bool := a.createdAt < b.createdAt || a.createdAt == b.createdAt && a.id ≤ b.id

/- `ORDER BY source_id ASC, target_id ASC, type ASC`. -/
def linkLe (a b : MemoryLink) : Bool := a.sourceId < b.sourceId || a.sourceId == b.sourceId &&
  (a.targetId < b.targetId || a.targetId == b.targetId && a.linkType ≤ b.linkType)

def betweenMemories (memories : List SQLiteSourceMemory) (link : MemoryLink) : Bool :=
  memories.any (·.id == link.sourceId) && memories.any (·.id == link.targetId)

def readSqliteExport (source : Source) : SQLiteExport :=
  let memories := (source.rows.insertionSort (createdLe · ·)).map (sourceMemory source)
  let ordered := source.links.insertionSort (linkLe · ·)
  ⟨memories,ordered.filter (betweenMemories memories),sortedSet (memories.flatMap (·.tags)),
    ordered.countP (!betweenMemories memories ·)⟩

inductive MigrationError where
  | valueError (message : String)
  | notNullViolation (column : String)
  | uniqueViolation (constraint : String)
  | foreignKeyViolation
  | numericValueOutOfRange
  | untranslatableCharacter
  deriving DecidableEq, Repr

structure Target where
  rows : List Row
  workspaces : List (String × String)
  tags : List Tag
  tagSequence : Int
  memoryTags : List (String × Int)
  links : List MemoryLink
  searchDocuments : List SearchDocument
  memoryRefSeq : Int

/- `setval('memory_ref_seq', GREATEST(COALESCE(MAX(memory_ref), 1), 1), COUNT(memory_ref) > 0)` in
the migration of the schema, and the number that comes next. -/
def schemaSequence (memoryRefs : List Int) : Int :=
  if memoryRefs.isEmpty then 1 else max (memoryRefs.max?.getD 1) 1 + 1

/- An empty database once `ensure_postgres_schema` is through. -/
def emptyTarget : Target := ⟨[],[],[],0,[],[],[],schemaSequence []⟩

/- The tables that the repository works on. -/
def Target.store (target : Target) : Store where
  tables := { empty with
    memories := target.rows.map (·.toMemoryRow)
    workspaces := target.workspaces
    tags := target.tags
    tagSequence := target.tagSequence
    memoryTags := target.memoryTags
    links := target.links
    searchDocuments := target.searchDocuments }
  memoryRefSeq := target.memoryRefSeq

def Target.has (target : Target) (memoryId : String) : Bool := target.rows.any (·.id == memoryId)

abbrev Import := Except MigrationError Target

/- `archived_at` is not among the columns. -/
def importedRow (memory : SQLiteSourceMemory) (archivedAt : Option String) : Row where
  id := memory.id
  memoryRef := memory.memoryRef
  title := memory.title
  content := memory.content
  summary := memory.summary
  type := memory.memoryType
  status := memory.status
  createdAt := memory.createdAt
  updatedAt := memory.updatedAt
  archivedAt := archivedAt
  metadata := memory.metadata
  readCount := memory.readCount
  accessScore := memory.accessScore
  lastAccessedAt := memory.lastAccessedAt
  lastSurfacedAt := memory.lastSurfacedAt

/- `INTEGER`. -/
def isInteger (value : Int) : Bool := -2147483648 ≤ value && value ≤ 2147483647

def upsertMemory (memory : SQLiteSourceMemory) (target : Target) : Import :=
  if memory.memoryRef.isNone then .error (.notNullViolation "memory_ref")
  else if !isInteger memory.readCount then .error .numericValueOutOfRange
  else if !isJsonb (.obj memory.metadata) then .error .untranslatableCharacter
  else if target.rows.any fun row => row.id != memory.id && row.memoryRef == memory.memoryRef then
    .error (.uniqueViolation "uq_memories_memory_ref")
  else if target.has memory.id then .ok { target with
    rows := update (·.id == memory.id) (fun row => importedRow memory row.archivedAt) target.rows }
  else .ok { target with rows := target.rows ++ [importedRow memory none] }

def importWorkspace (memoryId : String) (target : Target) (workspaceId : String) : Import :=
  if target.workspaces.contains (memoryId,workspaceId) then .ok target
  else if !target.has memoryId then .error .foreignKeyViolation
  else .ok { target with workspaces := target.workspaces ++ [(memoryId,workspaceId)] }

def insertTagName (name : String) (target : Target) : Target :=
  if target.tags.any (·.name == name) then target
  else { target with tags := target.tags ++ [⟨target.tagSequence + 1,name⟩], tagSequence := target.tagSequence + 1 }

def tagIdOf (name : String) (target : Target) : Option Int := (target.tags.find? (·.name == name)).map (·.id)

/- `_ensure_tag` and the mapping. -/
def importTag (memoryId : String) (target : Target) (name : String) : Import :=
  let there := insertTagName name target
  match tagIdOf name there with
  | none => .error (.valueError ("Failed to resolve imported tag: " ++ name))
  | some tagId =>
    if there.memoryTags.contains (memoryId,tagId) then .ok there
    else if !there.has memoryId then .error .foreignKeyViolation
    else .ok { there with memoryTags := there.memoryTags ++ [(memoryId,tagId)] }

def importMemory (target : Target) (memory : SQLiteSourceMemory) : Import := do
  let target ← upsertMemory memory target
  let target ← memory.workspaceIds.foldlM (importWorkspace memory.id)
    { target with workspaces := target.workspaces.filter (·.1 != memory.id) }
  memory.tags.foldlM (importTag memory.id) { target with memoryTags := target.memoryTags.filter (·.1 != memory.id) }

def importMemories (target : Target) (memories : List SQLiteSourceMemory) : Import := memories.foldlM importMemory target

def importLink (target : Target) (link : MemoryLink) : Import :=
  let same := isLink link.sourceId link.targetId link.linkType
  if target.links.any same then
    .ok { target with links := update same (fun old => { old with context := link.context }) target.links }
  else if !target.has link.sourceId then .error .foreignKeyViolation
  else .ok { target with links := target.links ++ [link] }

def importLinks (target : Target) (links : List MemoryLink) : Import := links.foldlM importLink target

structure MigrationSummary where
  dryRun : Bool
  allowNonEmptyTarget : Bool
  targetExistingMemories : Nat
  memories : Nat
  workspaceMappings : Nat
  tagNames : Nat
  tagMappings : Nat
  links : Nat
  skippedLinks : Nat
  deriving DecidableEq, Repr

def summaryOf (exported : SQLiteExport) (dryRun allowNonEmptyTarget : Bool) (target : Target) : MigrationSummary :=
  ⟨dryRun,allowNonEmptyTarget,target.rows.length,exported.memories.length,
    (exported.memories.map (·.workspaceIds.length)).sum,exported.tagNames.length,
    (exported.memories.map (·.tags.length)).sum,exported.links.length,exported.skippedLinks⟩

def importExport (exported : SQLiteExport) (target : Target) : Import := do
  let target ← importMemories target exported.memories
  importLinks target exported.links

/- The transaction is rolled back when the import raises. -/
def migrateSqliteToPostgres (source : Source) (dryRun allowNonEmptyTarget : Bool) (target : Target) :
    Except MigrationError MigrationSummary × Target :=
  let exported := readSqliteExport source
  if !target.rows.isEmpty && !allowNonEmptyTarget then
    (.error (.valueError ("Refusing to import into a non-empty Postgres target. " ++
      "Pass allow_non_empty_target=True only for controlled reruns.")),target)
  else if dryRun then (.ok (summaryOf exported dryRun allowNonEmptyTarget target),target)
  else match importExport exported target with
    | .error error => (.error error,target)
    | .ok after => (.ok (summaryOf exported dryRun allowNonEmptyTarget target),after)

end McpMemory.Postgres
