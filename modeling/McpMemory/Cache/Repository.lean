import McpMemory.Cache.Serialize
import McpMemory.Curation.Services
import McpMemory.Lib.Epochs
import McpMemory.Lib.Reading
import McpMemory.Relational.Repository

/-! What the shared read cache reads of the PostgreSQL repository, and the search epochs that the
triggers of its schema keep. Each statement sees the tables as they are when it runs. -/
namespace McpMemory.Cache
open Curation (ActionError parseMemoryRef)
open Epochs Memory Reading

inductive Tracked where
  | memories
  | workspaces
  | links
  | embeddings
  deriving DecidableEq, Repr

inductive Lane where
  | keyword
  | vector
  | graph
  deriving DecidableEq, Repr

/- `mcp_memory_bump_search_epoch` and the triggers that call it. -/
def lane : Tracked → Lane
  | .memories | .workspaces => .keyword
  | .links => .graph
  | .embeddings => .vector

structure Embedding where
  memoryId : String
  modelName : String
  vector : List Int
  deriving DecidableEq, Repr

def Row : Tracked → Type
  | .memories => MemoryRow
  | .workspaces => String × String
  | .links => MemoryLink
  | .embeddings => Embedding

/- No trigger is on the tags. -/
structure Repository where
  counted : Counted Row Lane
  memoryTags : List (String × String)

def Repository.memories (r : Repository) : List MemoryRow := r.counted.rows .memories

def Repository.links (r : Repository) : List MemoryLink := r.counted.rows .links

structure SearchEpochs where
  keyword : Nat
  vector : Nat
  graph : Nat
  deriving DecidableEq, Repr

/- `get_search_epochs`, one statement. -/
def getSearchEpochs (r : Repository) : SearchEpochs :=
  ⟨r.counted.counts .keyword,r.counted.counts .vector,r.counted.counts .graph⟩

inductive Write where
  | row (statement : Epochs.Statement Row)
  | tags (change : List (String × String) → List (String × String))

def write (r : Repository) : Write → Repository
  | .row statement => { r with counted := execute lane r.counted statement }
  | .tags change => { r with memoryTags := change r.memoryTags }

/- A transaction, with the deletes that foreign keys add to it. -/
def commit (writes : List Write) (r : Repository) : Repository := writes.foldl write r

theorem commitSince {writes : List Write} {r : Repository} : Since r.counted (commit writes r).counted := by
  unfold commit
  induction writes generalizing r with
  | nil => exact sinceRefl _
  | cons first rest ih =>
    refine sinceTrans ?_ ih
    cases first with
    | row statement => exact executeSince
    | tags change => exact sinceRefl _

theorem epochsCounts {r other : Repository} : getSearchEpochs r = getSearchEpochs other ↔ r.counted.counts = other.counted.counts := by
  constructor
  · intro same
    simp only [getSearchEpochs,SearchEpochs.mk.injEq] at same
    refine funext fun lane => ?_
    cases lane with
    | keyword => exact same.1
    | vector => exact same.2.1
    | graph => exact same.2.2
  · intro same
    simp only [getSearchEpochs,same]

/- `resolve_memory_id`: a text that is no reference is an id, whether or not a memory has it. -/
def resolveMemoryId (memoryId : String) : Reading Repository (Except ActionError (Option String)) :=
  match parseMemoryRef memoryId with
  | .error error => pure (.error error)
  | .ok none => pure (.ok (some memoryId))
  | .ok (some memoryRef) => see fun r =>
    .ok ((r.memories.find? (·.memoryRef == some (memoryRef : Int))).map (·.id))

/- `get_memory`, without the workspaces and tags of the row. -/
def getMemory (memoryId : String) : Reading Repository (Except ActionError (Option MemoryRow)) := do
  match ← resolveMemoryId memoryId with
  | .error error => pure (.error error)
  | .ok none => pure (.ok none)
  | .ok (some memoryId) => see fun r => .ok (r.memories.find? (·.id == memoryId))

structure ReadPayload where
  memoryRef : String
  title : String
  content : String
  deriving DecidableEq, Repr

/- `agent_memory_record_payload`, all that is left of a record in the default shape. -/
def agentMemoryRecordPayload (row : MemoryRow) : Except ActionError ReadPayload := do
  let memoryRef ← Curation.formatMemoryRef row.memoryRef
  .ok ⟨match memoryRef with
    | .str text => text
    | _ => row.id,row.title,row.content⟩

def linkTuples (links : List MemoryLink) : Json :=
  let edges := links.map fun link => (⟨link.sourceId,link.targetId,link.linkType,link.context⟩ : Edge)
  .arr ((edges.insertionSort (edgeLe · ·)).map fun edge =>
    .arr [.str edge.sourceId,.str edge.targetId,.str edge.linkType,.str edge.context])

def supersededLe (a b : MemoryRow) : Bool :=
  a.id < b.id || a.id == b.id && (a.updatedAt < b.updatedAt || a.updatedAt == b.updatedAt && a.status ≤ b.status)

def revisionOf (row : MemoryRow) : Json.Object := [("status",.str row.status),("updated_at",.str row.updatedAt)]

def buildReadCacheValidationToken (sha256 : String → String) (record : MemoryRow) (outgoing incoming : List MemoryLink)
    (superseded : List MemoryRow) : String :=
  "v1:" ++ sha256 (serializeJson (.obj [("memory_id",.str record.id),("record",.obj (revisionOf record)),
    ("relationships",.obj [("incoming",linkTuples incoming),("outgoing",linkTuples outgoing)]),
    ("superseded",.arr ((superseded.insertionSort (supersededLe · ·)).map fun row =>
      .obj (("memory_id",.str row.id)::revisionOf row)))]))

def rowsById (r : Repository) (ids : List String) : List MemoryRow := r.memories.filter (ids.contains ·.id)

def supersededTargets (memoryId : String) (outgoing : List MemoryLink) : List String :=
  (outgoing.filter fun link => link.sourceId == memoryId && link.linkType == "SUPERSEDES").map (·.targetId)

def supersededRows (targets : List String) : Reading Repository (List MemoryRow) :=
  if targets.isEmpty then pure [] else see fun r => rowsById r targets

/- The statements for the links, and for the memories that the memories found supersede. -/
def rowTokens (sha256 : String → String) (ids : List String) (rows : List MemoryRow) :
    Reading Repository (List (String × String)) :=
  if rows.isEmpty then pure []
  else do
    let existing := ids.filter fun memoryId => rows.any (·.id == memoryId)
    let outgoing ← see fun r => r.links.filter (existing.contains ·.sourceId)
    let incoming ← see fun r => r.links.filter (existing.contains ·.targetId)
    let superseded ← supersededRows (Relational.normalizeValues (existing.flatMap (supersededTargets · outgoing)))
    pure (ids.filterMap fun memoryId => (rows.find? (·.id == memoryId)).map fun row => (memoryId,
      buildReadCacheValidationToken sha256 row (outgoing.filter (·.sourceId == memoryId))
        (incoming.filter (·.targetId == memoryId))
        ((supersededTargets memoryId outgoing).filterMap fun target => superseded.find? (·.id == target))))

/- `get_read_cache_validation_tokens`: up to four statements on one connection, no reference resolved. -/
def validationTokens (sha256 : String → String) (memoryIds : List String) : Reading Repository (List (String × String)) :=
  let ids := Relational.normalizeValues memoryIds
  if ids.isEmpty then pure [] else (see fun r => rowsById r ids) >>= rowTokens sha256 ids

end McpMemory.Cache
