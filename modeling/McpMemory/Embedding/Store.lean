import McpMemory.Memory.Tables

/-! `SQLiteVectorStore` of `embeddings.py`, with what the search takes for stale or missing. Times are
whole microseconds, and a vector is whatever the provider gives. -/
namespace McpMemory.Embedding
open Memory

structure EmbeddingRow (V : Type) where
  sourceKind : String
  sourceId : String
  workspaceId : Option String
  modelName : String
  embedding : V
  memoryUpdatedAt : Option String
  updatedAt : Int
  deriving DecidableEq

/- `embed` is the provider by its model, `isoformat` the text of a time that `_parse_timestamp` reads, and
`timestamp` the moment that `datetime.fromisoformat` reads, none of both where they raise. -/
structure Env (V : Type) where
  embed : String → String → V
  size : V → Nat
  isoformat : String → Option String
  timestamp : String → Option Int

variable {V : Type}

/- The primary key. -/
def isRowOf (sourceKind sourceId modelName : String) (row : EmbeddingRow V) : Bool :=
  row.sourceKind == sourceKind && row.sourceId == sourceId && row.modelName == modelName

abbrev sameKey (new row : EmbeddingRow V) : Bool := isRowOf new.sourceKind new.sourceId new.modelName row

def getRow (sourceKind sourceId modelName : String) (rows : List (EmbeddingRow V)) : Option (EmbeddingRow V) :=
  rows.find? (isRowOf sourceKind sourceId modelName)

/- `ON CONFLICT … DO UPDATE … WHERE`, with the rows that it changed. -/
def insertFenced (new : EmbeddingRow V) (rows : List (EmbeddingRow V)) : List (EmbeddingRow V) × Nat :=
  match getRow new.sourceKind new.sourceId new.modelName rows with
  | none => (rows ++ [new],1)
  | some row =>
    if row.memoryUpdatedAt.all fun stored => new.memoryUpdatedAt.any (stored ≤ ·) then
      (Table.update (sameKey new) (fun row => { row with
        workspaceId := new.workspaceId, embedding := new.embedding
        memoryUpdatedAt := new.memoryUpdatedAt, updatedAt := new.updatedAt }) rows,1)
    else (rows,0)

def insertOrReplace (new : EmbeddingRow V) (rows : List (EmbeddingRow V)) : List (EmbeddingRow V) :=
  rows.filter (fun row => !sameKey new row) ++ [new]

/- The row carries the version that it is of, or none and is written as it comes. -/
def upsert (t : Tables) (new : EmbeddingRow V) (rows : List (EmbeddingRow V)) : Bool × List (EmbeddingRow V) :=
  match new.memoryUpdatedAt with
  | none => (true,insertOrReplace new rows)
  | some sourceUpdatedAt =>
    match selectRow new.sourceId t with
    | none => (false,rows)
    | some current =>
      if current.updatedAt ≠ sourceUpdatedAt then (false,rows)
      else
        let written := insertFenced new rows
        (written.2 == 1,written.1)

def delete (sourceKind sourceId : String) (modelName : Option String) (rows : List (EmbeddingRow V)) :
    List (EmbeddingRow V) :=
  rows.filter fun row => !(row.sourceKind == sourceKind && row.sourceId == sourceId && modelName.all (row.modelName == ·))

def deleteByModel (sourceKind modelName : String) (rows : List (EmbeddingRow V)) : List (EmbeddingRow V) :=
  rows.filter fun row => !(row.sourceKind == sourceKind && row.modelName == modelName)

/- `_memory_embedding_text` -/
def memoryEmbeddingText (memory : MemoryRecord) : String :=
  String.intercalate "\n" ([memory.summary.getD "",memory.content,String.intercalate ", " memory.tags].filter (· ≠ ""))

variable (env : Env V)

/- A second is a million of these; the tolerance is one. -/
def embeddingIsStale (embeddingUpdatedAt : Int) (memoryUpdatedAt : String) : Bool :=
  memoryUpdatedAt ≠ "" && (env.timestamp memoryUpdatedAt).any (embeddingUpdatedAt + 1 < ·)

/- An empty id is not asked for. -/
def isStaleOrMissing (modelName : String) (rows : List (EmbeddingRow V)) (candidate : MemoryRecord) : Bool :=
  let row := if candidate.id = "" then none else getRow "memory" candidate.id modelName rows
  match row with
  | none => true
  | some row => match row.memoryUpdatedAt with
    | some stored => stored ≠ candidate.updatedAt
    | none => embeddingIsStale env row.updatedAt candidate.updatedAt

def staleOrMissingEmbeddingCandidates (modelName : String) (rows : List (EmbeddingRow V))
    (candidates : List MemoryRecord) : List MemoryRecord :=
  candidates.filter (isStaleOrMissing env modelName rows)

end McpMemory.Embedding
