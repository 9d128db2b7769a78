import McpMemory.History.Uuid
import McpMemory.Ingest.Groups
import McpMemory.Memory.ActionValues

/-! The actions of `core/curation_models.py` and `action_id` of `core/curation_identity.py`. The
confidence of an action is left out, a number that the identity drops. -/
namespace McpMemory.Actions
open Canonical Memory Text
open History (Uuid)
open Ingest (words)

/- `uuid5` is that of the namespace of the curation actions. -/
structure Env extends Canonical.Env where
  uuid5 : String → String

structure LinkAssertion where
  sourceId : Uuid
  targetId : Uuid
  linkType : String
  context : Option String
  deriving DecidableEq

structure AbsentLinkAssertion where
  sourceId : Uuid
  targetId : Uuid
  linkType : String
  deriving DecidableEq

structure EvidenceRef where
  memoryId : Option Uuid
  link : Option LinkAssertion
  revisionToken : Option String
  excerpt : Option String
  hasReference : memoryId.isSome ∨ link.isSome

inductive MemoryStatus where
  | active
  | archived
  deriving DecidableEq, Repr

def MemoryStatus.value : MemoryStatus → String
  | .active => "active"
  | .archived => "archived"

structure ActionPreconditions where
  recordTokens : List (Uuid × String)
  requiredStatuses : List (Uuid × MemoryStatus)
  requiredLinks : List LinkAssertion
  absentLinks : List AbsentLinkAssertion
  tokensDistinct : (recordTokens.map (·.1)).Nodup
  statusesDistinct : (requiredStatuses.map (·.1)).Nodup

inductive OmissionReason where
  | duplicateWording
  | routineExecutionTrace
  | formattingOrBoilerplate
  | movedToSplitChild
  | explicitlySuperseded
  deriving DecidableEq, Repr

def OmissionReason.value : OmissionReason → String
  | .duplicateWording => "duplicate_wording"
  | .routineExecutionTrace => "routine_execution_trace"
  | .formattingOrBoilerplate => "formatting_or_boilerplate"
  | .movedToSplitChild => "moved_to_split_child"
  | .explicitlySuperseded => "explicitly_superseded"

structure OmittedMaterial where
  material : String
  reason : OmissionReason
  deriving DecidableEq

structure ClaimMapping where
  output : String
  sourceMemoryIds : List Uuid
  deriving DecidableEq

structure ClaimManifest where
  preservedClaims : List String
  transformedClaims : List String
  omittedMaterial : List OmittedMaterial
  sourceMapping : List ClaimMapping
  unresolvedTensions : List String
  deriving DecidableEq

inductive Operation where
  | normalizeMemory (targetId : Uuid) (title summary : Option String) (tags : Option (List String))
  | rewriteMemory (targetId : Uuid) (title : Option String) (content : String) (summary : Option String)
      (claimManifest : ClaimManifest)
  | createLink (sourceId targetId : Uuid) (linkType : String) (context : Option String)
  | removeLink (sourceId targetId : Uuid) (linkType : String) (context : Option String)
  | mergeMemories (canonicalId : Uuid) (sourceIds : List Uuid) (title : Option String) (content : String)
      (summary : Option String) (claimManifest : ClaimManifest)
  | splitMemory (targetId : Uuid) (children : List ClaimMapping) (claimManifest : ClaimManifest)
  | archiveMemory (targetId : Uuid) (claimManifest : ClaimManifest)

/- `^[A-Z][A-Z0-9_]*$` -/
def canonicalLinkType (linkType : String) : Bool :=
  match linkType.toList with
  | [] => false
  | c::rest => c.isUpper && rest.all fun c => c.isUpper || c.isDigit || c = '_'

/- What the validators of the models ask for. -/
def Operation.valid : Operation → Bool
  | .normalizeMemory _ title summary tags => title.isSome || summary.isSome || tags.isSome
  | .createLink _ _ linkType context => canonicalLinkType linkType && 2 ≤ (words (strip (context.getD ""))).length
  | .removeLink _ _ linkType _ => canonicalLinkType linkType
  | .mergeMemories _ sourceIds _ _ _ _ => !sourceIds.isEmpty
  | .splitMemory _ children _ => !children.isEmpty
  | .rewriteMemory .. | .archiveMemory .. => true

structure CurationAction where
  actionId : Uuid
  rationale : String
  evidence : List EvidenceRef
  preconditions : ActionPreconditions
  operation : Operation
  valid : operation.valid = true

/- `model_dump(mode="json")` -/

def LinkAssertion.json (link : LinkAssertion) : Json :=
  .obj [("source_id",.str link.sourceId.text),("target_id",.str link.targetId.text),("link_type",.str link.linkType),
    ("context",optional link.context)]

def AbsentLinkAssertion.json (link : AbsentLinkAssertion) : Json :=
  .obj [("source_id",.str link.sourceId.text),("target_id",.str link.targetId.text),("link_type",.str link.linkType)]

def optionalLink : Option LinkAssertion → Json
  | none => .null
  | some link => link.json

def EvidenceRef.json (evidence : EvidenceRef) : Json :=
  .obj [("memory_id",optional (evidence.memoryId.map (·.text))),("link",optionalLink evidence.link),
    ("revision_token",optional evidence.revisionToken),("excerpt",optional evidence.excerpt)]

def ActionPreconditions.json (preconditions : ActionPreconditions) : Json :=
  .obj [("record_tokens",.obj (preconditions.recordTokens.map fun item => (item.1.text,.str item.2))),
    ("required_statuses",.obj (preconditions.requiredStatuses.map fun item => (item.1.text,.str item.2.value))),
    ("required_links",.arr (preconditions.requiredLinks.map (·.json))),
    ("absent_links",.arr (preconditions.absentLinks.map (·.json)))]

def OmittedMaterial.json (omitted : OmittedMaterial) : Json :=
  .obj [("material",.str omitted.material),("reason",.str omitted.reason.value)]

def ClaimMapping.json (mapping : ClaimMapping) : Json :=
  .obj [("output",.str mapping.output),("source_memory_ids",.arr (mapping.sourceMemoryIds.map fun id => .str id.text))]

def ClaimManifest.json (manifest : ClaimManifest) : Json :=
  .obj [("preserved_claims",.arr (manifest.preservedClaims.map .str)),
    ("transformed_claims",.arr (manifest.transformedClaims.map .str)),
    ("omitted_material",.arr (manifest.omittedMaterial.map (·.json))),
    ("source_mapping",.arr (manifest.sourceMapping.map (·.json))),
    ("unresolved_tensions",.arr (manifest.unresolvedTensions.map .str))]

def tagsJson : Option (List String) → Json
  | none => .null
  | some tags => .arr (tags.map .str)

def Operation.fields : Operation → Json.Object
  | .normalizeMemory targetId title summary tags => [("operation",.str "normalize_memory"),("target_id",.str targetId.text),
      ("title",optional title),("summary",optional summary),("tags",tagsJson tags)]
  | .rewriteMemory targetId title content summary claimManifest => [("operation",.str "rewrite_memory"),
      ("target_id",.str targetId.text),("title",optional title),("content",.str content),("summary",optional summary),
      ("claim_manifest",claimManifest.json)]
  | .createLink sourceId targetId linkType context => [("operation",.str "create_link"),("source_id",.str sourceId.text),
      ("target_id",.str targetId.text),("link_type",.str linkType),("context",optional context)]
  | .removeLink sourceId targetId linkType context => [("operation",.str "remove_link"),("source_id",.str sourceId.text),
      ("target_id",.str targetId.text),("link_type",.str linkType),("context",optional context)]
  | .mergeMemories canonicalId sourceIds title content summary claimManifest => [("operation",.str "merge_memories"),
      ("canonical_id",.str canonicalId.text),("source_ids",.arr (sourceIds.map fun id => .str id.text)),("title",optional title),
      ("content",.str content),("summary",optional summary),("claim_manifest",claimManifest.json)]
  | .splitMemory targetId children claimManifest => [("operation",.str "split_memory"),("target_id",.str targetId.text),
      ("children",.arr (children.map (·.json))),("claim_manifest",claimManifest.json)]
  | .archiveMemory targetId claimManifest => [("operation",.str "archive_memory"),("target_id",.str targetId.text),
      ("claim_manifest",claimManifest.json)]

def Operation.name : Operation → String
  | .normalizeMemory .. => "normalize_memory"
  | .rewriteMemory .. => "rewrite_memory"
  | .createLink .. => "create_link"
  | .removeLink .. => "remove_link"
  | .mergeMemories .. => "merge_memories"
  | .splitMemory .. => "split_memory"
  | .archiveMemory .. => "archive_memory"

def modelDump (action : CurationAction) : Json.Object :=
  [("action_id",.str action.actionId.text),("rationale",.str action.rationale),
    ("evidence",.arr (action.evidence.map (·.json))),("preconditions",action.preconditions.json)] ++ action.operation.fields

variable (env : Env)

/- `_identifier` -/
def identifier : Json → Except String String
  | .str value => .ok (collapseText env.toEnv value)
  | _ => .error "identity identifiers must be strings or UUIDs"

/- `base` and `target_keys` of `action_id`. -/
def base : List String := ["action_id","confidence","rationale","operation","evidence","preconditions"]

def targetKeys : List String := ["target_id","source_id","canonical_id","source_ids"]

def isArgument (field : String × Json) : Bool := !base.contains field.1 && !targetKeys.contains field.1

/- What the id of an action is made from. -/
def actionName (planId : String) (position : Int) (data : Json.Object) : Except String Json := do
  let operation ← identifier env ((Json.get data "operation").getD .null)
  let targetIds := ["target_id","source_id","canonical_id"].filterMap (Json.get data) ++ Json.items (Json.get data "source_ids")
  let targets ← targetIds.mapM (identifier env)
  let arguments ← canonicalActionValue env.toEnv none
    (.obj (Json.set (data.filter isArgument) "operation" (.str operation)))
  let preconditions ← canonicalActionValue env.toEnv none ((Json.get data "preconditions").getD (.obj []))
  let evidence ← canonicalActionValue env.toEnv none ((Json.get data "evidence").getD (.arr []))
  .ok (.obj [("schema_version",.int 1),("plan_id",.str (collapseText env.toEnv planId)),("position",.int position),
    ("operation",.str operation),("target_ids",.arr ((sortedSet targets).map .str)),("arguments",arguments),
    ("preconditions",preconditions),("evidence",evidence)])

def actionText (planId : String) (position : Int) (action : CurationAction) : Except String String := do
  let data ← canonicalActionValue env.toEnv none (.obj (modelDump action))
  let name ← actionName env planId position (match data with | .obj fields => fields | _ => [])
  canonicalize env.toEnv name

def actionId (planId : String) (position : Int) (action : CurationAction) : Except String String :=
  (actionText env planId position action).map env.uuid5

/- The part that each memory has in an operation. -/
structure Roles where
  target : Option Uuid
  source : Option Uuid
  canonical : Option Uuid
  sources : List Uuid

def Operation.roles : Operation → Roles
  | .normalizeMemory targetId _ _ _ | .rewriteMemory targetId _ _ _ _ | .splitMemory targetId _ _ | .archiveMemory targetId _ =>
    ⟨some targetId,none,none,[]⟩
  | .createLink sourceId targetId _ _ | .removeLink sourceId targetId _ _ => ⟨some targetId,some sourceId,none,[]⟩
  | .mergeMemories canonicalId sourceIds _ _ _ _ => ⟨none,none,some canonicalId,sourceIds⟩

def Roles.memories (roles : Roles) : List Uuid :=
  roles.target.toList ++ roles.source.toList ++ roles.canonical.toList ++ roles.sources

structure SameRoles (roles others : Roles) : Prop where
  target : roles.target = others.target
  source : roles.source = others.source
  canonical : roles.canonical = others.canonical
  sources : SameMembers id roles.sources others.sources

end McpMemory.Actions
