import McpMemory.Curation.Transaction

/-! `mcp/internal_mutation_services.py`, the services behind the mutation tools of a
curator, over the repository that `curator_action_adapter.py` puts in front of an action
transaction. The task queue is taken away there, so the notes for an ingest task reduce
to reading `task_id`. -/
namespace McpMemory.Curation
open Memory Text Transaction

/- `repr` renders a list or a dictionary; `directActionId` is the UUID that
`direct_action_id` derives from the id of an evidence. -/
structure ToolEnv extends actions : Env where
  repr : Json → String
  directActionId : String → String

variable (env : ToolEnv)

def typeError (message : String) : ActionError := .other ("TypeError: " ++ message)

def requireString (arguments : Json.Object) (field : String) : Except ActionError String :=
  match Json.get arguments field with
  | some (.str value) =>
    if strip value = "" then .error (.valueError (field ++ " is required")) else .ok (strip value)
  | _ => .error (typeError (field ++ " must be a string"))

def optionalString (arguments : Json.Object) (field : String) : Except ActionError (Option String) :=
  match Json.get arguments field with
  | none | some .null => .ok none
  | some (.str value) => .ok (if strip value = "" then none else some (strip value))
  | _ => .error (typeError (field ++ " must be a string"))

def strippedItems (field : String) : List Json → Except ActionError (List String)
  | [] => .ok []
  | .str value::rest => do
    let rest ← strippedItems field rest
    .ok (if strip value = "" then rest else strip value :: rest)
  | _::_ => .error (typeError (field ++ " must be a list of strings"))

def stringList (arguments : Json.Object) (field : String) : Except ActionError (List String) :=
  match Json.get arguments field with
  | none | some .null => .ok []
  | some (.arr items) => strippedItems field items
  | _ => .error (typeError (field ++ " must be a list of strings"))

def optionalObject (arguments : Json.Object) (field : String) : Except ActionError (Option Json.Object) :=
  match Json.get arguments field with
  | none | some .null => .ok none
  | some (.obj fields) => .ok (some fields)
  | _ => .error (typeError (field ++ " must be an object"))

def optionalBool (arguments : Json.Object) (field : String) : Except ActionError Bool :=
  match Json.get arguments field with
  | none => .ok false
  | some (.bool value) => .ok value
  | _ => .error (typeError (field ++ " must be a boolean"))

def given (arguments : Json.Object) (field : String) : Bool := (Json.get arguments field).isSome

/- `read(arguments, field) if field in arguments else None`. -/
def ifGiven {α : Type} (read : Json.Object → String → Except ActionError α) (arguments : Json.Object)
    (field : String) : Except ActionError (Option α) :=
  if given arguments field then (read arguments field).map some else .ok none

/- `re.sub(r"\s+", " ", text)`. -/
def collapseSpaces (inRun : Bool) : List Char → List Char
  | [] => []
  | c::rest =>
    if isSpace c then if inRun then collapseSpaces true rest else ' ' :: collapseSpaces true rest
    else c :: collapseSpaces false rest

def normalizeQualityText (value : String) : String :=
  String.ofList (collapseSpaces false (env.unicode.lower (strip value)).toList)

def appendContent (existing addition : String) : String :=
  if strip addition = "" || contains existing (strip addition) then existing
  else strip (rstrip existing ++ "\n\n" ++ strip addition)

def normalizeTags (tags : List String) : List String :=
  sortedSet ((tags.map fun tag => replaceChar '_' '-' (env.unicode.lower (strip tag))).filter (· != ""))

def asInt : Json → Option Int
  | .int value => some value
  | _ => none

def asText : Json → Option String
  | .str value => some value
  | _ => none

def mergeMetadataLists (existing override : List Json) : List Json :=
  let items := existing ++ override
  if items.all (asInt · |>.isSome) then
    (((items.filterMap asInt).dedup).insertionSort (· ≤ ·)).map .int
  else if items.all (asText · |>.isSome) then
    (sortedSet (((items.filterMap asText).map strip).filter (· != ""))).map .str
  else override

def mergeMemoryMetadata (existing override : Json.Object) : Json.Object :=
  override.foldl (fun merged item => Json.set merged item.1 (match Json.get merged item.1, item.2 with
    | some (.arr current),.arr value => .arr (mergeMetadataLists current value)
    | _,value => value)) existing

def memoryWriteQualityError (title content : String) (summary : Option String) : Option String :=
  let title := normalizeQualityText env title
  let summary := normalizeQualityText env (summary.getD "")
  let content := normalizeQualityText env content
  let titleLikeCompletion := startsWith title "task_complete" || startsWith title "task complete"
  let summaryLikeCompletion := startsWith summary "task id:" || contains summary "completion marker"
  let contentHasCompletionShape := contains content "task id:" &&
    (contains content "task name:" || startsWith content "task:") &&
    (contains content "completion marker" || contains content "completionrecorded" ||
      contains content "merged:" || contains content "archived:" || contains content "absorbed_observations:")
  if titleLikeCompletion || summaryLikeCompletion || contentHasCompletionShape then
    some "routine completion/status traces must use task_complete instead of creating memories"
  else none

def isGenericSummary (summary : String) : Bool :=
  let normalized := strip (normalizeQualityText env summary)
  startsWith normalized "covers " || startsWith normalized "added "

def memoryWriteQualityWarnings (summary : Option String) (memoryType : String) (tags : List String)
    (content : String) : List String :=
  (if summary.any (isGenericSummary env) then ["generic_summary"] else []) ++
  (if env.unicode.lower (strip memoryType) = "observation" && tags.isEmpty then
    ["observation_missing_tags"] else []) ++
  (if 4000 ≤ (strip content).toList.length then ["memory_needs_split"] else [])

def formatMemoryRef : Option Int → Except ActionError Json
  | none => .ok .null
  | some memoryRef =>
    if memoryRef < 1 then .error (.valueError "memory_ref must be a positive integer")
    else .ok (.str ("mem-" ++ toString memoryRef))

def internalMutationRecordPayload (record : MemoryRecord) : Except ActionError Json := do
  let memoryRef ← formatMemoryRef record.memoryRef
  .ok (.obj [("id",.str record.id),("memory_ref",memoryRef),("title",.str record.title),
    ("summary",Memory.optional record.summary),("type",.str record.type),("status",.str record.status),
    ("updated_at",.str record.updatedAt),("workspace_ids",.arr (record.workspaceIds.map .str)),
    ("tags",.arr (record.tags.map .str))])

/- A service answers with a JSON object or raises. -/
abbrev Service (α : Type) := Script Command Reply ActionError α

abbrev Answer := Json.Object

def refused (error : String) : Answer := [("status",.str "error"),("error",.str error)]

def refusedBecause (error detail : String) : Answer := refused error ++ [("detail",.str detail)]

def accepted (fields : Json.Object) : Answer := ("status",.str "ok") :: fields

/- `_TransactionRepository`. Its update drops the values that are `None`. -/

structure RecordChanges where
  title : Option String
  content : Option String
  summary : Option String
  memoryType : Option String
  status : Option String
  workspaceIds : Option (List String)
  tags : Option (List String)
  metadata : Option Json.Object

def RecordChanges.nothing : RecordChanges := ⟨none,none,none,none,none,none,none,none⟩

def getRecord (memoryId : String) : Service (Option MemoryRecord) := ask (Command.getMemory memoryId)

def updateRecord (memoryId : String) (changes : RecordChanges) : Service (Option MemoryRecord) :=
  ask (Command.updateMemory memoryId ⟨changes.title.map some,changes.content.map some,changes.memoryType,none,
    changes.status,changes.summary.map some,changes.workspaceIds,changes.tags,changes.metadata⟩)

def linkRecords (sourceId targetId linkType context : String) : Service MemoryLink :=
  ask (Command.addLink sourceId targetId linkType context)

def unlinkRecords (sourceId targetId linkType : String) : Service Bool :=
  ask (Command.removeLink sourceId targetId linkType)

/- Both `_maybe_record_…` helpers, without a task queue. -/
def maybeRecord (arguments : Json.Object) : Service Unit := do
  let _ ← check (optionalString arguments "task_id")
  pure ()

def archiveMemoryRecord (arguments : Json.Object) : Service Answer := do
  let memoryId ← check (requireString arguments "memory_id")
  match ← updateRecord memoryId { RecordChanges.nothing with status := some "archived" } with
  | none => pure (refused "memory_not_found")
  | some updated => do
    maybeRecord arguments
    pure (accepted [("record",← check (internalMutationRecordPayload updated))])

def orText (value : Option String) (fallback : String) : String := value.getD fallback

/- `str(value)`. -/
def pythonText : Json → String
  | .str value => value
  | .int value => toString value
  | .bool value => if value then "True" else "False"
  | .null => "None"
  | value => env.repr value

def mergedSources (metadata : Json.Object) (sourceId : String) : Json.Object :=
  let earlier := Json.items (Json.get metadata "merged_source_ids")
  Json.set metadata "merged_source_ids" (.arr ((sortedSet (earlier.map (pythonText env) ++ [sourceId])).map .str))

def setAll (metadata override : Json.Object) : Json.Object :=
  override.foldl (fun metadata item => Json.set metadata item.1 item.2) metadata

def assertFound (record : Option MemoryRecord) : Service MemoryRecord :=
  match record with
  | none => .fail (.other "AssertionError")
  | some record => pure record

def mergeMemoryIntoCanonical (arguments : Json.Object) : Service Answer := do
  let canonicalMemoryId ← check (requireString arguments "canonical_memory_id")
  let sourceMemoryId ← check (requireString arguments "source_memory_id")
  match ← getRecord canonicalMemoryId, ← getRecord sourceMemoryId with
  | some canonical,some source => do
    let title ← check (optionalString arguments "title")
    let content ← check (optionalString arguments "content")
    let summary ← check (optionalString arguments "summary")
    let tags ← check (ifGiven stringList arguments "tags")
    let workspaceIds ← check (ifGiven stringList arguments "workspace_ids")
    let override ← check (optionalObject arguments "metadata")
    let metadata := mergedSources env (setAll canonical.metadata (override.getD [])) source.id
    let updated ← updateRecord canonical.id {
      title := some (orText title canonical.title)
      content := some (orText content (appendContent canonical.content (summaryOr source.summary source.content)))
      summary := summary, memoryType := none, status := none
      workspaceIds := some (match workspaceIds with
        | some (first::rest) => first::rest
        | _ => sortedSet (canonical.workspaceIds ++ source.workspaceIds))
      tags := some (normalizeTags env (tags.getD (canonical.tags ++ source.tags)))
      metadata := some metadata }
    let updated ← assertFound updated
    let linkContext ← check (optionalString arguments "link_context")
    let _ ← linkRecords updated.id source.id "SUPERSEDES"
      (orText linkContext "Merged into canonical memory by internal maintenance tools.")
    let archived ← updateRecord source.id { RecordChanges.nothing with status := some "archived" }
    maybeRecord arguments
    let canonicalPayload ← check (internalMutationRecordPayload updated)
    let archivedPayload ← check (optionally internalMutationRecordPayload archived)
    pure (accepted [("canonical",canonicalPayload),("archived",archivedPayload.getD .null)])
  | _,_ => pure (refused "memory_not_found")

structure SplitPart where
  title : String
  content : String
  summary : Option String
  memoryType : String
  status : String
  workspaceIds : List String
  tags : List String
  metadata : Json.Object

structure SplitGroup where
  original : MemoryRecord
  groupId : String
  count : Nat

def splitMetadata (group : SplitGroup) (index : Nat) : Json.Object :=
  [("split_from_memory_id",.str group.original.id),("split_from_memory_title",.str group.original.title),
    ("split_group_id",.str group.groupId),("split_part_index",.int index),
    ("split_part_count",.int group.count)]

/- An empty or blank text makes the part invalid; a value that is no text raises. -/
def partText (part : Json.Object) (field : String) : Except ActionError (Option String) :=
  match requireString part field with
  | .ok value => .ok (some value)
  | .error (.valueError _) => .ok none
  | .error error => .error error

def normalizedPart (group : SplitGroup) (index : Nat) : Json → Except ActionError (Option SplitPart)
  | .obj part => do
    match ← partText part "title" with
    | none => .ok none
    | some title => do
      match ← partText part "content" with
      | none => .ok none
      | some content => do
        let summary ← optionalString part "summary"
        let memoryType ← optionalString part "memory_type"
        let status ← optionalString part "status"
        let workspaceIds ← stringList part "workspace_ids"
        let tags ← stringList part "tags"
        let override ← optionalObject part "metadata"
        .ok (some ⟨title,content,summary,orText memoryType group.original.type,orText status "active",
          if workspaceIds.isEmpty then group.original.workspaceIds else workspaceIds,
          normalizeTags env (group.original.tags ++ tags),setAll (splitMetadata group index) (override.getD [])⟩)
  | _ => .ok none

/- The first invalid part settles the answer. -/
def normalizedParts (group : SplitGroup) (index : Nat) : List Json → Except ActionError (Option (List SplitPart))
  | [] => .ok (some [])
  | part::rest => do
    match ← normalizedPart env group index part with
    | none => .ok none
    | some part => .ok ((← normalizedParts group (index + 1) rest).map (part :: ·))

def SplitPart.values (part : SplitPart) : CreateValues :=
  ⟨none,part.title,part.content,some part.memoryType,none,some part.status,part.workspaceIds,part.tags,
    part.summary,none,none,part.metadata⟩

/- The `except` clause: what was made is deleted, and the exception goes on. -/
def discard (error : ActionError) : List MemoryRecord → Service (List MemoryRecord)
  | [] => .fail error
  | record::rest => .call (.deleteMemory record.id) fun
    | .ok _ => discard error rest
    | .error other => .fail other

def createParts (original : MemoryRecord) (linkType linkContext : String) (created : List MemoryRecord) :
    List SplitPart → Service (List MemoryRecord)
  | [] => pure created
  | part::rest => .call (.createMemory part.values) fun
    | .error error => discard error created
    | .ok none => discard (.other "AssertionError") created
    | .ok (some record) => .call (.addLink record.id original.id linkType linkContext) fun
      | .error error => discard error (created ++ [record])
      | .ok _ => createParts original linkType linkContext (created ++ [record]) rest

def refreshParts (childIds : List String) : List MemoryRecord → Service (List MemoryRecord)
  | [] => pure []
  | created::rest => do
    let siblings := childIds.filter (· != created.id)
    let refreshed ← updateRecord created.id { RecordChanges.nothing with
      metadata := some (mergeMemoryMetadata created.metadata [("split_child_memory_ids",.arr (childIds.map .str)),
        ("split_sibling_memory_ids",.arr (siblings.map .str))]) }
    let rest ← refreshParts childIds rest
    pure (refreshed.getD created :: rest)

def payloads : List MemoryRecord → Except ActionError (List Json)
  | [] => .ok []
  | record::rest => do
    let payload ← internalMutationRecordPayload record
    .ok (payload :: (← payloads rest))

def splitMemoryRecord (groupId : String) (arguments : Json.Object) : Service Answer := do
  let memoryId ← check (requireString arguments "memory_id")
  match ← getRecord memoryId with
  | none => pure (refused "memory_not_found")
  | some original => do
    let rawParts := Json.items (Json.get arguments "parts")
    if rawParts.length < 2 then pure (refused "split_parts_required")
    else do
      let linkType ← check (optionalString arguments "link_type")
      let linkContext ← check (optionalString arguments "link_context")
      let archiveOriginal ← check (optionalBool arguments "archive_original")
      match ← check (normalizedParts env ⟨original,groupId,rawParts.length⟩ 1 rawParts) with
      | none => pure (refused "split_part_invalid")
      | some parts => do
        let created ← createParts original (orText linkType "DEPENDS_ON") (orText linkContext
          "Derived from an oversized memory split by internal maintenance tools.") [] parts
        let childIds := created.map (·.id)
        let created ← refreshParts childIds created
        let metadata := mergeMemoryMetadata original.metadata [("split_group_id",.str groupId),
          ("split_child_memory_ids",.arr (childIds.map .str)),("split_child_count",.int childIds.length)]
        let refreshed ← updateRecord original.id { RecordChanges.nothing with
          status := if archiveOriginal then some "archived" else none, metadata := some metadata }
        maybeRecord arguments
        let originalPayload ← check (internalMutationRecordPayload (refreshed.getD original))
        let createdPayloads ← check (payloads created)
        let archivedPayload ← check (optionally internalMutationRecordPayload
          (if archiveOriginal then refreshed else none))
        pure (accepted [("original",originalPayload),("created",.arr createdPayloads),
          ("archived",archivedPayload.getD .null)])

def updatableFields : List String := ["title","content","summary","memory_type","status","workspace_ids",
  "tags","metadata"]

def updateMemoryRecord (arguments : Json.Object) : Service Answer := do
  let memoryId ← check (requireString arguments "memory_id")
  match ← getRecord memoryId with
  | none => pure (refused "memory_not_found")
  | some record =>
    if !updatableFields.any (given arguments) then pure (refused "no_updates_requested")
    else do
      let title ← check (optionalString arguments "title")
      let content ← check (optionalString arguments "content")
      let memoryType ← check (optionalString arguments "memory_type")
      let summary ← check (optionalString arguments "summary")
      let tags ← check (ifGiven stringList arguments "tags")
      let newSummary := if given arguments "summary" then summary else record.summary
      match memoryWriteQualityError env (orText title record.title) (orText content record.content) newSummary with
      | some detail => pure (refusedBecause "low_value_memory_rejected" detail)
      | none => do
        let warnings := memoryWriteQualityWarnings env newSummary (orText memoryType record.type)
          (tags.getD record.tags) (orText content record.content)
        let status ← check (optionalString arguments "status")
        let workspaceIds ← check (ifGiven stringList arguments "workspace_ids")
        let metadata ← check (optionalObject arguments "metadata")
        match ← updateRecord memoryId ⟨title,content,summary,memoryType,status,workspaceIds,tags,metadata⟩ with
        | none => pure (refused "memory_not_found")
        | some updated => do
          maybeRecord arguments
          let payload ← check (internalMutationRecordPayload updated)
          pure (accepted ([("record",payload)] ++
            if warnings.isEmpty then [] else [("warnings",.arr (warnings.map .str))]))

/- A reference outside the memories needs no record. -/
def targetFound (targetId : String) : Service Bool :=
  if startsWith targetId "ext:" then pure true
  else do pure (← getRecord targetId).isSome

def createMemoryLink (arguments : Json.Object) : Service Answer := do
  let sourceId ← check (requireString arguments "source_id")
  let targetId ← check (requireString arguments "target_id")
  let linkType ← check (requireString arguments "link_type")
  let context ← check (optionalString arguments "context")
  let source ← getRecord sourceId
  let found ← targetFound targetId
  if source.isNone || !found then pure (refused "memory_not_found")
  else do
    let link ← linkRecords sourceId targetId linkType (context.getD "")
    maybeRecord arguments
    pure (accepted [("link",.obj [("source_id",.str link.sourceId),("target_id",.str link.targetId),
      ("link_type",.str link.linkType),("context",.str link.context)])])

def deleteMemoryLink (arguments : Json.Object) : Service Answer := do
  let sourceId ← check (requireString arguments "source_id")
  let targetId ← check (requireString arguments "target_id")
  let linkType ← check (requireString arguments "link_type")
  if ← unlinkRecords sourceId targetId linkType then
    maybeRecord arguments
    pure (accepted [])
  else pure (refused "link_not_found")

end McpMemory.Curation
