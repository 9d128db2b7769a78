import McpMemory.Postgres.Columns
import McpMemory.Relational.Repository

/-! `storage/postgres_repository.py`: how the PostgreSQL repository creates a memory, in one
transaction, and reads it. The checks of the arguments are those of the plain repository. Texts
hold no NUL character, which the driver refuses. -/
namespace McpMemory.Postgres
open Memory Text Transaction Table
open Curation (ActionError CreateValues parseMemoryRef)
open Relational (PreparedCreate prepareMemoryCreate)

def memoryByRef (t : Tables) (memoryRef : Nat) : Option String :=
  (t.memories.find? (·.memoryRef == some (memoryRef : Int))).map (·.id)

/- A text that reads as a reference is never taken as an id. -/
def resolveMemoryId (t : Tables) (memoryId : String) : Except ActionError (Option String) :=
  (parseMemoryRef memoryId).map fun
    | none => some memoryId
    | some memoryRef => memoryByRef t memoryRef

def recordOf (resolve : Tables → String → Except ActionError (Option String)) (t : Tables) (memoryId : String) :
    Except ActionError (Option MemoryRecord) :=
  (resolve t memoryId).map fun id => id.bind (recordById · t)

def memoryOf : Tables → String → Except ActionError (Option MemoryRecord) := recordOf resolveMemoryId

/- `memory_ref_seq` gives its next number. -/
structure Store where
  tables : Tables
  memoryRefSeq : Int

abbrev Query (α : Type) := Tx Store ActionError α

def port : Port Store ActionError := ⟨(·.tables),fun after store => { store with tables := after },.integrity,
  Curation.duplicateKey,.other "AssertionError"⟩

/- A sequence is not rolled back. -/
def transacted {α : Type} (x : Query α) : Query α := fun oracle session =>
  let reply := atomically x oracle session
  (reply.1,{ reply.2 with data := ⟨reply.2.data.tables,(x oracle session).2.data.memoryRefSeq⟩ })

def nextval : Query Int := do
  let memoryRef ← inspect (·.memoryRefSeq)
  adjust fun store => { store with memoryRefSeq := store.memoryRefSeq + 1 }
  pure memoryRef

/- The tables as they were for the reads of a method, where others wrote since. -/
def look (seen : Option Tables) (memoryId : String) : Query (Option MemoryRecord) := statement fun store =>
  (memoryOf (seen.getD store.tables) memoryId).map (·,store)

def getMemory (memoryId : String) : Query (Option MemoryRecord) := look none memoryId

def checkJsonb (metadata : Json.Object) : Except ActionError Unit :=
  if isJsonb (.obj metadata) then .ok () else .error (.other "UntranslatableCharacter: \\u0000 cannot be converted to text.")

/- `ON CONFLICT DO NOTHING`. -/
def insertMemoryTagOnce (memoryId : String) (tagId : Int) : Statement Unit := fun t =>
  if t.memoryTags.contains (memoryId,tagId) then .ok ((),t) else insertMemoryTag memoryId tagId t

def mapTag (memoryId tag : String) : Query Unit := do
  onTables port (insertTag tag)
  match ← onTables port (read (selectTagId tag)) with
  | none => pure ()
  | some tagId => onTables port (insertMemoryTagOnce memoryId tagId)

def replaceTagMappings (memoryId : String) (tags : List String) : Query Unit := do
  onTables port (deleteMemoryTags memoryId)
  each (mapTag memoryId) tags

def upsertDocument (document : SearchDocument) : Statement Unit := fun t =>
  if !t.has document.memoryId then .error foreignKey
  else if t.searchDocuments.any (·.memoryId == document.memoryId) then
    .ok ((),{ t with searchDocuments := update (·.memoryId == document.memoryId) (fun _ => document) t.searchDocuments })
  else insertSearchDocument document t

def upsertSearchDocument (memoryId title : String) (summary : Option String) (content : String) (tags : List String) :
    Query Unit :=
  onTables port (upsertDocument ⟨memoryId,title,summary.getD "",content,String.intercalate " " tags⟩)

variable (env : Curation.Env)

def insertPrepared (item : PreparedCreate) : Query Unit := do
  lift (checkJsonb item.row.metadata)
  let memoryRef ← nextval
  onTables port (insertMemory { item.row with memoryRef := some memoryRef })
  replaceWorkspaces port item.row.id item.workspaceIds
  replaceTagMappings item.row.id item.tags
  upsertSearchDocument item.row.id item.row.title (some item.summary) item.row.content item.tags

/- `create_memories` of one request. -/
def createMemory (request : CreateValues) : Query (Option MemoryRecord) := do
  let now ← observe
  let item ← lift (prepareMemoryCreate env now request)
  transacted (insertPrepared item)
  getMemory item.row.id

end McpMemory.Postgres
