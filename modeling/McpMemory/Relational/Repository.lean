import McpMemory.Curation.Adapter

/-! `relational/repository.py`: the writes of the plain repository. Each reads with statements
of its own and then writes in one transaction. Its methods take the commands of the
mutation services, whose keywords they share; the two that only the action transaction has
raise. -/
namespace McpMemory.Relational
open Memory Text Transaction
open Curation (ActionError Command Reply UpdateValues CreateValues repositoryMemory normalizeLinkType)

variable (env : Curation.Env)

abbrev Query (α : Type) := Tx Tables ActionError α

def port : Port Tables ActionError := ⟨id,fun after _ => after,.integrity,Curation.duplicateKey,
  .other "AssertionError"⟩

/- The read half of a method, in the tables of `seen` where others wrote since. -/
def look (seen : Option Tables) (memoryId : String) : Query (Option MemoryRecord) := statement fun t =>
  (repositoryMemory (seen.getD t) memoryId).map fun found => (found,t)

def getMemory (memoryId : String) : Query (Option MemoryRecord) := look none memoryId

def getLinks (memoryId : String) (incoming : Bool) (linkType : Option String) : Query (List MemoryLink) := do
  match ← getMemory memoryId with
  | none => pure []
  | some record =>
    let wanted ← lift (optionally (normalizeLinkType env) linkType)
    onTables port (read fun t => (t.links.filter fun link =>
      (if incoming then link.targetId else link.sourceId) == record.id &&
        wanted.all (· == link.linkType)).insertionSort fun a b =>
          a.sourceId < b.sourceId || a.sourceId == b.sourceId && a.targetId ≤ b.targetId)

/- Each stripped value once, in the order given. -/
def normalizeValues (values : List String) : List String :=
  ((values.map strip).filter (· != "")).eraseDups

theorem memNormalize {values : List String} {text : String} :
    text ∈ normalizeValues values ↔ (∃ value ∈ values, strip value = text) ∧ text ≠ "" := by
  simp [normalizeValues]

def validateMemoryType (memoryType : String) : Except ActionError String :=
  if Curation.validMemoryTypes.contains (strip memoryType) then .ok (strip memoryType)
  else .error (.valueError ("invalid memory_type: '" ++ memoryType ++
    "'. Expected one of ['fact', 'journal', 'observation', 'plan', 'reflection']"))

def validateMemoryStatus (status : String) : Except ActionError String :=
  if Curation.validMemoryStatuses.contains (strip status) then .ok (strip status)
  else .error (.valueError ("invalid status: '" ++ status ++
    "'. Expected one of ['active', 'archived', 'degraded', 'stale']"))

def validateRequiredText (field value : String) : Except ActionError Unit :=
  if value = "" then .error (.valueError (field ++ " must be non-empty")) else .ok ()

def noWorkspaces : ActionError := .valueError "workspace_ids must contain at least one non-empty value"

def unexpectedKeyword (method keyword : String) : ActionError := .other
  ("TypeError: RelationalMemoryRepository." ++ method ++ "() got an unexpected keyword argument '" ++ keyword ++ "'")

def replaceWorkspaceMappings (memoryId : String) (workspaceIds : List String) : Query Unit :=
  replaceWorkspaces port memoryId workspaceIds

/- A name without a row is passed over. -/
def mapTag (memoryId tag : String) : Query Unit := do
  onTables port (insertTag tag)
  match ← onTables port (read (selectTagId tag)) with
  | none => pure ()
  | some tagId => onTables port (insertMemoryTag memoryId tagId)

def replaceTagMappings (memoryId : String) (tags : List String) : Query Unit := do
  onTables port (deleteMemoryTags memoryId)
  each (mapTag memoryId) tags

def insertFtsRow (memoryId title summary content : String) (tags : List String) : Query Unit :=
  onTables port (insertSearchDocument ⟨memoryId,title,summary,content,String.intercalate " " tags⟩)

def replaceFtsRow (memoryId title summary content : String) (tags : List String) : Query Unit := do
  onTables port (deleteSearchDocuments memoryId)
  insertFtsRow memoryId title summary content tags

structure PreparedCreate where
  row : MemoryRow
  summary : String
  workspaceIds : List String
  tags : List String

/- The row still lacks its `memory_ref`. -/
def prepareMemoryCreate (now : Moment ActionError) (request : CreateValues) : Except ActionError PreparedCreate := do
  if request.type.isSome then .error (unexpectedKeyword "create_memory" "type")
  else
    let createdAt := summaryOr request.createdAt now.text
    let title := strip request.title
    let content := strip request.content
    let workspaceIds := normalizeValues request.workspaceIds
    let memoryType ← validateMemoryType (request.memoryType.getD "journal")
    let status ← validateMemoryStatus (request.status.getD "active")
    validateRequiredText "title" title
    validateRequiredText "content" content
    if workspaceIds.isEmpty then .error noWorkspaces
    else
      let summary := summaryOr request.summary (env.buildSummary title content memoryType)
      .ok ⟨⟨summaryOr request.memoryId now.uuid,none,title,content,some summary,memoryType,status,createdAt,
        summaryOr request.updatedAt createdAt,if status = "archived" then some now.text else none,
        request.metadata⟩,summary,workspaceIds,normalizeValues request.tags⟩

def insertPrepared (nextMemoryRef : Int) (item : PreparedCreate) : Query Unit := do
  onTables port (insertMemory { item.row with memoryRef := some nextMemoryRef })
  replaceWorkspaceMappings item.row.id item.workspaceIds
  replaceTagMappings item.row.id item.tags
  insertFtsRow item.row.id item.row.title item.summary item.row.content item.tags

/- `create_memories` of one request. -/
def createMemory (request : CreateValues) : Query (Option MemoryRecord) := do
  let now ← observe
  let item ← lift (prepareMemoryCreate env now request)
  atomically do
    let nextRef ← onTables port (read nextMemoryRef)
    insertPrepared nextRef item
  getMemory item.row.id

structure Revised where
  title : Option String
  content : Option String
  memoryType : Option String
  status : Option String
  workspaceIds : Option (List String)
  tags : Option (List String)

/- `None` stands for an argument that is not given. -/
def validateUpdate (changes : UpdateValues) : Except ActionError Revised := do
  if changes.type.isSome then .error (unexpectedKeyword "update_memory" "type")
  else
    let memoryType ← optionally validateMemoryType changes.memoryType
    let status ← optionally validateMemoryStatus changes.status
    let title := changes.title.join.map strip
    let content := changes.content.join.map strip
    let _ ← optionally (validateRequiredText "title") title
    let _ ← optionally (validateRequiredText "content") content
    if changes.workspaceIds.any fun ids => (normalizeValues ids).isEmpty then .error noWorkspaces
    else .ok ⟨title,content,memoryType,status,changes.workspaceIds.map normalizeValues,
      changes.tags.map normalizeValues⟩

/- A summary that is given as `None` leaves the column alone. -/
def resolvedSummary (existing : MemoryRecord) (changes : UpdateValues) (revised : Revised) : Option String :=
  match changes.summary with
  | some summary => summary
  | none => if revised.title.isSome || revised.content.isSome || revised.memoryType.isSome then
      some (env.buildSummary (revised.title.getD existing.title) (revised.content.getD existing.content)
        (revised.memoryType.getD existing.type))
    else none

/- The time of the archiving goes with the status, where that differs from the one read. -/
def archivedAtOf (existing : MemoryRecord) (now : String) (status archivedAt : Option String) : Option String :=
  match status with
  | none => archivedAt
  | some status => if status = existing.status then archivedAt
    else if status = "archived" then some now else none

def revise (existing : MemoryRecord) (changes : UpdateValues) (revised : Revised) (now : String) (row : MemoryRow) :
    MemoryRow := { row with
  title := revised.title.getD row.title
  content := revised.content.getD row.content
  summary := (resolvedSummary env existing changes revised).or row.summary
  type := revised.memoryType.getD row.type
  status := revised.status.getD row.status
  metadata := changes.metadata.getD row.metadata
  archivedAt := archivedAtOf existing now revised.status row.archivedAt
  updatedAt := now }

def mapped (replace : List String → Query Unit) : Option (List String) → Query Unit
  | none => pure ()
  | some values => replace values

def writeUpdate (existing : MemoryRecord) (changes : UpdateValues) (revised : Revised) : Query Unit := do
  let now ← observe
  onTables port (Memory.updateMemory existing.id (revise env existing changes revised now.text))
  mapped (replaceWorkspaceMappings existing.id) revised.workspaceIds
  mapped (replaceTagMappings existing.id) revised.tags
  match ← onTables port (read (recordById existing.id)) with
  | none => raise (.other "AssertionError")
  | some current =>
    replaceFtsRow existing.id current.title (current.summary.getD "") current.content
      (revised.tags.getD current.tags)

def updateMemory (seen : Option Tables) (memoryId : String) (changes : UpdateValues) :
    Query (Option MemoryRecord) := do
  match ← look seen memoryId with
  | none => pure none
  | some existing =>
    let revised ← lift (validateUpdate changes)
    atomically (writeUpdate env existing changes revised)
    getMemory existing.id

def addLink (sourceId targetId linkType context : String) : Query MemoryLink := do
  let linkType ← lift (normalizeLinkType env linkType)
  let link : MemoryLink := ⟨sourceId,targetId,linkType,strip context⟩
  atomically (onTables port (replaceLink link))
  pure link

def removeLink (sourceId targetId linkType : String) : Query Bool := do
  let linkType ← lift (normalizeLinkType env linkType)
  let rowcount ← atomically (onTables port (deleteLink sourceId targetId linkType))
  pure (0 < rowcount)

def deleteMemory (seen : Option Tables) (memoryId : String) : Query (Option MemoryRecord) := do
  match ← look seen memoryId with
  | none => pure none
  | some existing =>
    atomically do
      onTables port (deleteLinksOf existing.id)
      onTables port (deleteSearchDocuments existing.id)
      onTables port (Memory.deleteMemory existing.id)
    pure (some existing)

def noAttribute (method : String) : ActionError :=
  .other ("AttributeError: 'RelationalMemoryRepository' object has no attribute '" ++ method ++ "'")

def perform (seen : Option Tables) : (command : Command) → Query (Reply command)
  | .getMemory memoryId => getMemory memoryId
  | .getLinks memoryId incoming linkType => getLinks env memoryId incoming linkType
  | .getProtections _ => raise (noAttribute "get_protections")
  | .updateMemory memoryId changes => updateMemory env seen memoryId changes
  | .createMemory values => createMemory env values
  | .deleteMemory memoryId => deleteMemory seen memoryId
  | .addLink sourceId targetId linkType context => addLink env sourceId targetId linkType context
  | .removeLink sourceId targetId linkType => removeLink env sourceId targetId linkType
  | .setLineage .. => raise (noAttribute "set_lineage")

end McpMemory.Relational
