import McpMemory.Ingress.Request
import McpMemory.Memory.Database
import McpMemory.Memory.Rows

/-! `_SQLiteIngressDomainTransaction`, the surface that a callback of `execute` gets: it
reads a memory, creates one or appends to one. The callback may catch what a command
raises and go on; what the command wrote before it raised is then still there. Arguments
have their declared types, so the type checks of the source are not repeated. -/
namespace McpMemory.Ingress
open Memory Text Transaction

variable (env : Env)

/- The database as the open transaction sees it, and `touched_ids`. -/
structure Work where
  database : Database
  touched : List String

abbrev Action (α : Type) := Tx Work IngressError α

def port : Port Work IngressError where
  tables work := work.database.memory
  put after work := { work with database := { work.database with memory := after } }
  integrity := .integrity
  duplicateKey := duplicateKey
  untagged := .typeError "'NoneType' object is not subscriptable"

def touch (memoryId : String) : Action Unit := adjust fun work =>
  { work with touched := work.touched ++ [memoryId] }

structure CreateValues where
  memoryId : Option String
  title : Option String
  content : Option String
  memoryType : Option String
  type : Option String
  status : Option String
  workspaceIds : Option (List String)
  tags : Option (List String)
  createdAt : Option String
  summary : Option String
  metadata : Option Json.Object

structure AppendValues where
  memoryId : String
  content : String
  summary : Option String
  tags : Option (List String)
  workspaceIds : Option (List String)
  metadata : Option Json.Object

structure PreparedCreate where
  memoryId : String
  title : String
  content : String
  memoryType : String
  status : String
  workspaceIds : List String
  tags : List String
  createdAt : String
  summary : String
  metadata : Json.Object

structure PreparedAppend where
  content : String
  summary : Option String
  tags : List String
  workspaceIds : List String
  metadata : Json.Object

def requiredText (value : Option String) (name : String) : Except IngressError String :=
  let text := strip (value.getD "")
  if text = "" then .error (.valueError (name ++ " must be non-empty")) else .ok text

def normalizedTags (values : List String) : List String :=
  sortedSet ((values.map fun value => replaceChar '_' '-' (env.unicode.lower (strip value))).filter (· != ""))

def prepareCreate (now : Moment IngressError) (values : CreateValues) : Except IngressError PreparedCreate := do
  let memoryId ← identifier env (values.memoryId.getD now.uuid) "memory_id"
  let title ← requiredText values.title "title"
  let content ← requiredText values.content "content"
  let memoryType := values.memoryType.getD (values.type.getD "observation")
  let workspaceIds := normalizedValues (values.workspaceIds.getD [])
  if workspaceIds.isEmpty then
    .error (.valueError "workspace_ids must contain at least one non-empty value")
  else .ok ⟨memoryId,title,content,memoryType,values.status.getD "active",workspaceIds,
    normalizedTags env (values.tags.getD []),values.createdAt.getD now.text,
    summaryOr values.summary (env.buildSummary title content memoryType),values.metadata.getD []⟩

def prepareAppend (existing : MemoryRecord) (values : AppendValues) : Except IngressError PreparedAppend := do
  let addition ← requiredText (some values.content) "content"
  let merged := if Text.contains existing.content addition then existing.content
    else rstrip existing.content ++ "\n\n" ++ addition
  .ok ⟨strip merged,values.summary.or existing.summary,
    normalizedTags env (values.tags.getD existing.tags),
    normalizedValues (values.workspaceIds.getD existing.workspaceIds),
    (values.metadata.getD []).foldl (fun metadata field => Json.set metadata field.1 field.2) existing.metadata⟩

def getMemory (memoryId : String) : Action (Option MemoryRecord) := do
  let memoryId ← lift (identifier env memoryId "memory_id")
  onTables port (read (recordById memoryId))

def replaceMappings (memoryId : String) (workspaceIds tags : List String) : Action Unit := do
  replaceWorkspaces port memoryId workspaceIds
  replaceTags port memoryId tags

def createMemory (values : CreateValues) : Action (Option MemoryRecord) := do
  let now ← observe
  let prepared ← lift (prepareCreate env now values)
  let nextRef ← onTables port (read nextMemoryRef)
  onTables port (insertMemory ⟨prepared.memoryId,some nextRef,prepared.title,prepared.content,
    some prepared.summary,prepared.memoryType,prepared.status,prepared.createdAt,prepared.createdAt,
    none,prepared.metadata⟩)
  replaceMappings prepared.memoryId prepared.workspaceIds prepared.tags
  replaceFts port prepared.memoryId prepared.title prepared.summary prepared.content prepared.tags
  touch prepared.memoryId
  getMemory env prepared.memoryId

def appendMemory (values : AppendValues) : Action (Option MemoryRecord) := do
  let memoryId ← lift (identifier env values.memoryId "memory_id")
  match ← getMemory env memoryId with
  | none => raise (.valueError ("memory '" ++ memoryId ++ "' was not found"))
  | some existing =>
    let prepared ← lift (prepareAppend env existing values)
    let now ← observe
    onTables port (updateMemory memoryId fun row => { row with
      content := prepared.content, summary := prepared.summary, metadata := prepared.metadata, updatedAt := now.text })
    replaceMappings memoryId prepared.workspaceIds prepared.tags
    replaceFts port memoryId existing.title (prepared.summary.getD "") prepared.content prepared.tags
    touch memoryId
    getMemory env memoryId

inductive Command where
  | getMemory (memoryId : String)
  | createMemory (values : CreateValues)
  | appendMemory (values : AppendValues)

abbrev Reply : Command → Type := fun _ => Option MemoryRecord

def perform : (command : Command) → Action (Reply command)
  | .getMemory memoryId => getMemory env memoryId
  | .createMemory values => createMemory env values
  | .appendMemory values => appendMemory env values

structure MutationResult where
  operation : String
  affectedIds : List String

/- A callback; a result of `none` is one that is no `IngressMutationResult`. -/
abbrev Callback := Script Command Reply IngressError (Option MutationResult)

/- No command leaves the memory tables: the journal, the evidence of ingress and of
curation and the protections stay as they are, whatever the callback does. -/

def outside (work : Work) := (work.database.journal,work.database.ingress,work.database.curation,
  work.database.protections)

theorem blind (after : Tables) (work : Work) : outside (port.put after work) = outside work := rfl

theorem keepsGetMemory (memoryId : String) : Keeps outside (getMemory env memoryId) :=
  keepsBind (keepsLift _) fun _ => keepsOnTables blind _

theorem keepsReplaceMappings (memoryId : String) (workspaceIds tags : List String) :
    Keeps outside (replaceMappings memoryId workspaceIds tags) :=
  keepsBind (keepsReplaceWorkspaces blind _ _) fun _ => keepsReplaceTags blind _ _

theorem keepsTouch (memoryId : String) : Keeps outside (touch memoryId) := keepsAdjust fun _ => rfl

theorem keepsCreateMemory (values : CreateValues) : Keeps outside (createMemory env values) :=
  keepsBind keepsObserve fun _ => keepsBind (keepsLift _) fun _ => keepsBind (keepsOnTables blind _) fun _ =>
    keepsBind (keepsOnTables blind _) fun _ => keepsBind (keepsReplaceMappings _ _ _) fun _ =>
      keepsBind (keepsReplaceFts blind _ _ _ _ _) fun _ => keepsBind (keepsTouch _) fun _ => keepsGetMemory env _

theorem keepsAppendMemory (values : AppendValues) : Keeps outside (appendMemory env values) := by
  refine keepsBind (keepsLift _) fun memoryId => keepsBind (keepsGetMemory env _) fun existing => ?_
  cases existing with
  | none => exact keepsRaise _
  | some existing =>
    exact keepsBind (keepsLift _) fun _ => keepsBind keepsObserve fun _ => keepsBind (keepsOnTables blind _) fun _ =>
      keepsBind (keepsReplaceMappings _ _ _) fun _ => keepsBind (keepsReplaceFts blind _ _ _ _ _) fun _ =>
        keepsBind (keepsTouch _) fun _ => keepsGetMemory env _

theorem keepsPerform (command : Command) : Keeps outside (perform env command) := by
  cases command with
  | getMemory memoryId => exact keepsGetMemory env memoryId
  | createMemory values => exact keepsCreateMemory env values
  | appendMemory values => exact keepsAppendMemory env values

theorem keepsCallback (callback : Callback) : Keeps outside (callback.play (perform env)) :=
  keepsPlay (keepsPerform env) callback

end McpMemory.Ingress
