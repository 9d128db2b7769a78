import McpMemory.Curation.Request
import McpMemory.Memory.Database

/-! `_SQLiteCurationTransaction`, the surface that a callback of `execute_action` gets. A
command may touch a locked target or a memory that the callback itself created; any
other existing memory is refused. A stage hook follows each write. -/
namespace McpMemory.Curation
open Memory Text Transaction

variable (env : Env)

/- The store's settings; the constructor strips the embedding model. -/
structure Config where
  embeddingModel : String
  faultStage : Option String

variable (config : Config)

structure Work where
  database : Database
  targetIds : List String
  touched : List String
  newIds : List String

abbrev Action (α : Type) := Tx Work ActionError α

def duplicateKey (key : String) : ActionError :=
  .valueError ("duplicate canonical JSON key: '" ++ key ++ "'")

def port : Port Work ActionError where
  tables work := work.database.memory
  put after work := { work with database := { work.database with memory := after } }
  integrity := .integrity
  duplicateKey := duplicateKey
  untagged := .other "AssertionError"

def failStageAliases (stage : String) : List String :=
  if stage = "domain_mutation" then ["domain","after_domain","domain_mutation","after_domain_mutation"]
  else if stage = "projection_update" then
    ["projection","after_projection","projection_update","after_projection_update"]
  else if stage = "repair_intent" then ["repair","after_repair","repair_intent","after_repair_intent"]
  else if stage = "history" then ["history","after_history"]
  else if stage = "receipt_preparation" then
    ["receipt","before_receipt","receipt_preparation","after_receipt_preparation"]
  else [stage]

/- `hook` stands for the fault injector. -/
def failStage (stage : String) : Action Unit := do
  hook
  match config.faultStage.map (replaceChar '-' '_') with
  | none => pure ()
  | some fault => if (failStageAliases stage).contains fault then raise (.injected stage) else pure ()

/- A keyword argument that may be absent or present, and present as `None`. -/
abbrev Field (α : Type) := Option (Option α)

structure UpdateValues where
  title : Field String
  content : Field String
  memoryType : Option String
  type : Option String
  status : Option String
  summary : Field String
  workspaceIds : Option (List String)
  tags : Option (List String)
  metadata : Option Json.Object

def UpdateValues.nothing : UpdateValues := ⟨none,none,none,none,none,none,none,none,none⟩

structure CreateValues where
  memoryId : Option String
  title : String
  content : String
  memoryType : Option String
  type : Option String
  status : Option String
  workspaceIds : List String
  tags : List String
  summary : Option String
  createdAt : Option String
  updatedAt : Option String
  metadata : Json.Object

structure PreparedUpdate where
  title : String
  content : String
  memoryType : String
  status : String
  summary : Option String
  workspaceIds : List String
  tags : List String
  metadata : Json.Object

def validMemoryTypes : List String := ["journal","plan","fact","observation","reflection"]

def validMemoryStatuses : List String := ["active","stale","degraded","archived"]

def textOr (value : Field String) (fallback : String) : String :=
  match value with
  | some (some text) => strip text
  | _ => fallback

def prepareMemoryUpdate (existing : MemoryRecord) (changes : UpdateValues) : Except ActionError PreparedUpdate :=
  let title := textOr changes.title existing.title
  let content := textOr changes.content existing.content
  let memoryType := changes.memoryType.getD (changes.type.getD existing.type)
  let status := changes.status.getD existing.status
  let rebuilt := changes.title.isSome || changes.content.isSome || changes.type.isSome || changes.memoryType.isSome
  if title = "" ∨ content = "" then .error (.valueError "title and content must be non-empty")
  else if !validMemoryTypes.contains memoryType then
    .error (.valueError ("invalid memory_type: '" ++ memoryType ++ "'"))
  else if !validMemoryStatuses.contains status then
    .error (.valueError ("invalid status: '" ++ status ++ "'"))
  else .ok ⟨title,content,memoryType,status,
    match changes.summary with
    | some summary => summary
    | none => if rebuilt then some (env.buildSummary title content memoryType) else existing.summary,
    normalizedValues (changes.workspaceIds.getD existing.workspaceIds),
    normalizedValues (changes.tags.getD existing.tags),changes.metadata.getD existing.metadata⟩

structure PreparedCreate where
  row : MemoryRow
  summary : String
  workspaceIds : List String
  tags : List String

/- The row still lacks its `memory_ref`. -/
def prepareMemoryCreate (now : Moment ActionError) (values : CreateValues) : Except ActionError PreparedCreate :=
  let title := strip values.title
  let content := strip values.content
  let memoryType := values.memoryType.getD (values.type.getD "journal")
  let status := values.status.getD "active"
  let workspaceIds := normalizedValues values.workspaceIds
  let summary := summaryOr values.summary (env.buildSummary title content memoryType)
  let createdAt := values.createdAt.getD now.text
  if title = "" ∨ content = "" then .error (.valueError "title and content must be non-empty")
  else if !validMemoryTypes.contains memoryType || !validMemoryStatuses.contains status then
    .error (.valueError "invalid memory type or status")
  else if workspaceIds.isEmpty then
    .error (.valueError "workspace_ids must contain at least one non-empty value")
  else .ok ⟨⟨canonicalId env (values.memoryId.getD now.uuid),none,title,content,some summary,memoryType,
    status,createdAt,values.updatedAt.getD createdAt,none,values.metadata⟩,summary,workspaceIds,
    normalizedValues values.tags⟩

def touch (memoryIds : List String) : Action Unit := adjust fun work =>
  { work with touched := work.touched ++ memoryIds }

def locked (memoryId : String) (work : Work) : Bool :=
  work.targetIds.contains memoryId || work.newIds.contains memoryId

def requireAccess (memoryId : String) : Action String := do
  let memoryId := canonicalId env memoryId
  if ← inspect (locked memoryId) then pure memoryId
  else do
    if ← onTables port (read fun t => t.has memoryId) then
      raise (.fatal ("callback discovered unlocked target '" ++ memoryId ++ "'"))
    else pure memoryId

def requireEndpoint (memoryId : String) : Action String := do
  let memoryId := canonicalId env memoryId
  if startsWith memoryId "ext:" then pure memoryId
  else do
    if ← inspect (locked memoryId) then pure memoryId
    else do
      if ← onTables port (read fun t => t.has memoryId) then
        raise (.fatal ("callback discovered unlocked link endpoint '" ++ memoryId ++ "'"))
      else raise (.fatal ("link endpoint '" ++ memoryId ++ "' does not exist"))

/- This `_hydrate_record` leaves `archived_at` out. -/
def selectRecord (memoryId : String) (t : Tables) : Option MemoryRecord :=
  (recordById memoryId t).map fun record => { record with archivedAt := none }

def getMemory (memoryId : String) : Action (Option MemoryRecord) := do
  let memoryId ← requireAccess env memoryId
  onTables port (read (selectRecord memoryId))

def linkLe (a b : MemoryLink) : Bool :=
  a.sourceId < b.sourceId || a.sourceId == b.sourceId && (a.targetId < b.targetId ||
    a.targetId == b.targetId && a.linkType ≤ b.linkType)

def getLinks (memoryId : String) (incoming : Bool) (linkType : Option String) : Action (List MemoryLink) := do
  let memoryId ← requireAccess env memoryId
  let wanted ← lift (optionally (normalizeLinkType env) linkType)
  onTables port (read fun t => (t.links.filter fun link =>
    (if incoming then link.targetId else link.sourceId) == memoryId &&
      wanted.all (· == link.linkType)).insertionSort (linkLe · ·))

def getProtections (memoryId : String) : Action (List Protection) := do
  let memoryId ← requireAccess env memoryId
  select fun work => (work.database.protections.filter (·.memoryId == memoryId)).insertionSort
    (·.mode ≤ ·.mode)

def missing (memoryId : String) : ActionError := .stale ("target memory '" ++ memoryId ++ "' is missing")

def updateMemory (memoryId : String) (changes : UpdateValues) : Action (Option MemoryRecord) := do
  let memoryId ← requireAccess env memoryId
  match ← getMemory env memoryId with
  | none => raise (missing memoryId)
  | some existing =>
    let prepared ← lift (prepareMemoryUpdate env existing changes)
    let now ← observe
    onTables port (Memory.updateMemory memoryId fun row => { row with
      title := prepared.title, content := prepared.content, summary := prepared.summary
      type := prepared.memoryType, status := prepared.status, metadata := prepared.metadata
      updatedAt := now.text })
    replaceWorkspaces port memoryId prepared.workspaceIds
    replaceTags port memoryId prepared.tags
    touch [memoryId]
    failStage config "domain_mutation"
    replaceFts port memoryId prepared.title (prepared.summary.getD "") prepared.content prepared.tags
    failStage config "projection_update"
    getMemory env memoryId

def createMemory (values : CreateValues) : Action (Option MemoryRecord) := do
  let now ← observe
  let prepared ← lift (prepareMemoryCreate env now values)
  let memoryId := prepared.row.id
  if ← onTables port (read fun t => t.has memoryId) then
    raise (.fatal ("memory '" ++ memoryId ++ "' already exists"))
  else do
    let nextRef ← onTables port (read nextMemoryRef)
    onTables port (insertMemory { prepared.row with memoryRef := some nextRef })
    replaceWorkspaces port memoryId prepared.workspaceIds
    replaceTags port memoryId prepared.tags
    touch [memoryId]
    adjust fun work => { work with newIds := work.newIds ++ [memoryId] }
    failStage config "domain_mutation"
    replaceFts port memoryId prepared.row.title prepared.summary prepared.row.content prepared.tags
    failStage config "projection_update"
    match ← getMemory env memoryId with
    | none => raise (.other "AssertionError")
    | some record => pure (some record)

def deleteMemory (memoryId : String) : Action (Option MemoryRecord) := do
  let memoryId ← requireAccess env memoryId
  match ← getMemory env memoryId with
  | none => raise (missing memoryId)
  | some existing =>
    onTables port (deleteSearchDocuments memoryId)
    onTables port (Memory.deleteMemory memoryId)
    touch [memoryId]
    failStage config "domain_mutation"
    pure (some existing)

def addLink (sourceId targetId linkType context : String) : Action MemoryLink := do
  let source ← requireAccess env sourceId
  let target ← requireEndpoint env targetId
  let linkType ← lift (normalizeLinkType env linkType)
  let link : MemoryLink := ⟨source,target,linkType,strip context⟩
  onTables port (upsertLink link)
  touch [source,target]
  failStage config "domain_mutation"
  pure link

def removeLink (sourceId targetId linkType : String) : Action Bool := do
  let source ← requireAccess env sourceId
  let target ← requireEndpoint env targetId
  let linkType ← lift (normalizeLinkType env linkType)
  let rowcount ← onTables port (deleteLink source target linkType)
  touch [source,target]
  failStage config "domain_mutation"
  pure (0 < rowcount)

def setLineage (memoryId : String) (lineage : Json.Object) : Action (Option MemoryRecord) := do
  match ← getMemory env memoryId with
  | none => raise (missing memoryId)
  | some record =>
    updateMemory env config memoryId
      { UpdateValues.nothing with metadata := some (Json.set record.metadata "lineage" (.obj lineage)) }

inductive Command where
  | getMemory (memoryId : String)
  | getLinks (memoryId : String) (incoming : Bool) (linkType : Option String)
  | getProtections (memoryId : String)
  | updateMemory (memoryId : String) (changes : UpdateValues)
  | createMemory (values : CreateValues)
  | deleteMemory (memoryId : String)
  | addLink (sourceId targetId linkType context : String)
  | removeLink (sourceId targetId linkType : String)
  | setLineage (memoryId : String) (lineage : Json.Object)

def Reply : Command → Type
  | .getLinks .. => List MemoryLink
  | .getProtections .. => List Protection
  | .addLink .. => MemoryLink
  | .removeLink .. => Bool
  | _ => Option MemoryRecord

def perform : (command : Command) → Action (Reply command)
  | .getMemory memoryId => getMemory env memoryId
  | .getLinks memoryId incoming linkType => getLinks env memoryId incoming linkType
  | .getProtections memoryId => getProtections env memoryId
  | .updateMemory memoryId changes => updateMemory env config memoryId changes
  | .createMemory values => createMemory env config values
  | .deleteMemory memoryId => deleteMemory env config memoryId
  | .addLink sourceId targetId linkType context => addLink env config sourceId targetId linkType context
  | .removeLink sourceId targetId linkType => removeLink env config sourceId targetId linkType
  | .setLineage memoryId lineage => setLineage env config memoryId lineage

structure MutationResult where
  operation : String
  affectedIds : List String
  verificationDescriptor : Option String

/- A callback; a result of `none` is one that `normalize_result` refuses. -/
abbrev Callback := Script Command Reply ActionError (Option MutationResult)

end McpMemory.Curation
