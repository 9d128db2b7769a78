import McpMemory.Curation.Services
import McpMemory.Ingest.Batch
import McpMemory.Ingress.Execute

/-! The atomic paths of `mcp/internal_ingest_services.py`: the request and the callback that an
append and a create give to the transaction, and what becomes of an exception. The arguments have
been read and checked by then. From a receipt on the service only reads the repository and makes
notes for the task, which is left out. -/
namespace McpMemory.Ingress
open Memory Text Transaction

structure ServiceEnv extends store : Env where
  ingestMemoryQualityError : (title content : String) → (summary : Option String) → Option String

variable (env : ServiceEnv)

structure AppendArguments where
  batchId : String
  memoryId : String
  content : String
  taskId : String
  entryIds : List Nat
  summary : Option String
  summaryGiven : Bool
  tags : List String
  workspaceIds : List String
  metadata : Json.Object

/- `workspaceIds` after the default from the context. -/
structure CreateArguments where
  batchId : String
  taskId : String
  entryIds : List Nat
  title : String
  content : String
  summary : Option String
  memoryType : String
  status : String
  workspaceIds : List String
  tags : List String
  metadata : Json.Object

inductive IngestCall where
  | append (arguments : AppendArguments)
  | create (arguments : CreateArguments)

def texts (values : List String) : Json := .arr (values.map .str)

/- `optional_string(arguments, "summary") if "summary" in arguments else None`. -/
def AppendArguments.requestedSummary (arguments : AppendArguments) : Option String :=
  if arguments.summaryGiven then arguments.summary else none

def appendPayload (arguments : AppendArguments) : Json := .obj [("content",.str arguments.content),
  ("metadata",.obj arguments.metadata),("summary",Memory.optional arguments.requestedSummary),
  ("tags",texts (normalizedTags env.store arguments.tags)),("workspace_ids",texts (sortedSet arguments.workspaceIds))]

def createPayload (arguments : CreateArguments) : Json := .obj [("content",.str arguments.content),
  ("metadata",.obj arguments.metadata),("memory_type",.str arguments.memoryType),("status",.str arguments.status),
  ("summary",Memory.optional arguments.summary),("tags",texts (normalizedTags env.store arguments.tags)),
  ("title",.str arguments.title),("workspace_ids",texts arguments.workspaceIds)]

def buildIngestCreatedMetadata (taskId : String) (entryIds : List Int) (metadata : Json.Object) : Json.Object :=
  let merged := Json.set (Json.set metadata "created_via_ingest" (.bool true)) "ingest_task_id" (.str taskId)
  Json.set merged "source_entry_ids" (.arr (Ingest.mergeIntList (Json.get merged "source_entry_ids") entryIds))

/- The values of the append to a record. -/
def appendedValues (arguments : AppendArguments) (record : MemoryRecord) : AppendValues :=
  ⟨arguments.memoryId,arguments.content,
    if arguments.summaryGiven then arguments.requestedSummary else record.summary,
    some (normalizedTags env.store (record.tags ++ arguments.tags)),
    some (sortedSet (record.workspaceIds ++ arguments.workspaceIds)),
    some (Ingest.buildIngestAppendedMetadata arguments.taskId (arguments.entryIds.map Int.ofNat)
      (Curation.mergeMemoryMetadata record.metadata arguments.metadata))⟩

def createdValues (arguments : CreateArguments) : CreateValues :=
  ⟨none,some arguments.title,some arguments.content,some arguments.memoryType,none,some arguments.status,
    some arguments.workspaceIds,some (normalizedTags env.store arguments.tags),none,arguments.summary,
    some (buildIngestCreatedMetadata arguments.taskId (arguments.entryIds.map Int.ofNat) arguments.metadata)⟩

/- `IngressMutationResult(operation, [record.id])`. -/
def resultFor (operation : String) (record : Option MemoryRecord) : Callback :=
  match record with
  | none => .fail (.other "AttributeError: 'NoneType' object has no attribute 'id'")
  | some record => .done (some ⟨operation,[record.id]⟩)

def appendTo (arguments : AppendArguments) : Option MemoryRecord → Callback
  | none => .fail (.atomicService "memory_not_found" none)
  | some record =>
    if record.status ≠ "active" then .fail (.atomicService "memory_not_active" none)
    else match env.ingestMemoryQualityError record.title arguments.content arguments.requestedSummary with
      | some detail => .fail (.atomicService "low_value_memory_rejected" (some detail))
      | none => do
        let updated ← ask (.appendMemory (appendedValues env arguments record))
        resultFor "append" updated

def applyAppend (arguments : AppendArguments) : Callback := do
  let record ← ask (.getMemory arguments.memoryId)
  appendTo env arguments record

def applyCreate (arguments : CreateArguments) : Callback := do
  let record ← ask (.createMemory (createdValues env arguments))
  resultFor "create" record

def IngestCall.request : IngestCall → Request
  | .append arguments => ⟨arguments.batchId,"append",arguments.entryIds.map toString,[arguments.memoryId],
      appendPayload env arguments,none,none,some arguments.taskId⟩
  | .create arguments => ⟨arguments.batchId,"create",arguments.entryIds.map toString,[],
      createPayload env arguments,none,none,some arguments.taskId⟩

def IngestCall.callback : IngestCall → Callback
  | .append arguments => applyAppend env arguments
  | .create arguments => applyCreate env arguments

/- An answer of the service, or the exception that gets out of it. -/
inductive Outcome where
  | applied (receipt : ActionReceipt)
  | refused (error : String) (detail : Option String)
  | escaped (error : IngressError)
  deriving DecidableEq

def collision (actionId storedDigest requestedDigest : String) : Outcome :=
  .refused "ingress_action_identity_collision" (some ("ingress action receipt payload collision for '" ++ actionId ++
    "': stored digest '" ++ storedDigest ++ "', requested digest '" ++ requestedDigest ++ "'"))

/- The `except` clauses of the append. -/
def appendOutcome : Except IngressError ActionReceipt → Outcome
  | .ok receipt => .applied receipt
  | .error (.atomicService error detail) => .refused error detail
  | .error (.identityConflict actionId stored requested) => collision actionId stored requested
  | .error error => .escaped error

/- The create catches only the collision. -/
def createOutcome : Except IngressError ActionReceipt → Outcome
  | .ok receipt => .applied receipt
  | .error (.identityConflict actionId stored requested) => collision actionId stored requested
  | .error error => .escaped error

/- `execute` stands for that of the transaction which the context holds. -/
def serve (execute : Request → Callback → Except IngressError ActionReceipt) (call : IngestCall) : Outcome :=
  match call with
  | .append arguments => appendOutcome (execute ((IngestCall.append arguments).request env) (applyAppend env arguments))
  | .create arguments => match env.ingestMemoryQualityError arguments.title arguments.content arguments.summary with
    | some detail => .refused "low_value_memory_rejected" (some detail)
    | none => createOutcome (execute ((IngestCall.create arguments).request env) (applyCreate env arguments))

end McpMemory.Ingress
