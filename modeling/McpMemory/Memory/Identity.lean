import McpMemory.Memory.Canonical
import McpMemory.Memory.Tables

/-! `core/curation_identity.py`: the tokens of a record, of its links and of an action.
A token is the hash of a snapshot, so two states with one token count as the same. -/
namespace McpMemory.Memory
open Canonical

variable (env : Canonical.Env)

/- `_set_values`. -/
def setValues (values : List String) : List Json :=
  (sortedSet (values.map (collapseText env))).map .str

def optional : Option String → Json
  | none => .null
  | some value => .str value

def truthy : Json → Bool
  | .null => false
  | .bool value => value
  | .int value => value != 0
  | .str value => value != ""
  | .arr items => !items.isEmpty
  | .obj fields => !fields.isEmpty

/- `metadata.get(name, {}) or {}`. -/
def durableMetadataValue (metadata : Json.Object) (name : String) : Json :=
  match Json.get metadata name with
  | some value => if truthy value then value else .obj []
  | none => .obj []

def recordSnapshot (record : MemoryRecord) : Except String Json := do
  let lineage ← normalize env (durableMetadataValue record.metadata "lineage")
  let mutationMetadata ← normalize env (durableMetadataValue record.metadata "mutation_metadata")
  .ok (.obj [("schema_version",.int 1),("record",.obj [
    ("id",.str (collapseText env record.id)),
    ("title",.str (normalizeText env record.title)),
    ("content",.str (normalizeText env record.content)),
    ("summary",optional (record.summary.map (normalizeText env))),
    ("type",.str (collapseText env record.type)),
    ("status",.str (collapseText env record.status)),
    ("tags",.arr (setValues env record.tags)),
    ("workspace_ids",.arr (setValues env record.workspaceIds)),
    ("lineage",lineage),
    ("mutation_metadata",mutationMetadata)])])

def recordToken (record : MemoryRecord) : Except String String := do
  stableHash env (← recordSnapshot env record)

structure Edge where
  sourceId : String
  targetId : String
  linkType : String
  context : String
  deriving DecidableEq, Repr

def edgeLe (a b : Edge) : Bool :=
  a.sourceId < b.sourceId || a.sourceId == b.sourceId && (a.targetId < b.targetId ||
    a.targetId == b.targetId && (a.linkType < b.linkType ||
      a.linkType == b.linkType && a.context ≤ b.context))

def edgeOf (link : MemoryLink) : Edge := ⟨collapseText env link.sourceId,
  collapseText env link.targetId,collapseText env link.linkType,normalizeText env link.context⟩

def graphToken (memoryId : String) (links : List MemoryLink) : Except String String :=
  let edges := (links.map (edgeOf env)).dedup.insertionSort (edgeLe · ·)
  stableHash env (.obj [("schema_version",.int 1),("memory_id",.str (collapseText env memoryId)),
    ("edges",.arr (edges.map fun edge => .obj [("source_id",.str edge.sourceId),
      ("target_id",.str edge.targetId),("type",.str edge.linkType),("context",.str edge.context)]))])

def linkToken (sourceId targetId linkType : String) (context : Option String) (present : Bool) :
    Except String String :=
  stableHash env (.obj [("schema_version",.int 1),("source_id",.str (collapseText env sourceId)),
    ("target_id",.str (collapseText env targetId)),("type",.str (collapseText env linkType)),
    ("context",optional (context.map (normalizeText env))),("exists",.bool present)])

def actionSetListKeys : List String := ["tags","evidence","references","target_ids","source_ids",
  "required_links","absent_links"]

def actionIdentifierKeys : List String := ["id","memory_id","source_id","target_id","canonical_id",
  "link_type","status","tags","target_ids","source_ids","references"]

/- `{canonical_json(item): item}` read back in the order of its keys: of the items with
one text the last is kept. -/
def uniqueItems (items : List Json) : Except String (List Json) := do
  let keyed ← items.mapM fun item => do .ok ((← canonicalize env item),item)
  let keys := sortedSet (keyed.map (·.1))
  .ok (keys.filterMap fun key => (keyed.reverse.find? (·.1 == key)).map (·.2))

mutual

/- `canonicalize_action_value`. Two names with one normal form are one key: the value of
the later field takes the place of the earlier. -/
def canonicalActionValue (key : Option String) : Json → Except String Json
  | .str value => .ok (.str (if actionIdentifierKeys.contains (key.getD "") then collapseText env value
      else normalizeText env value))
  | .obj fields => do .ok (.obj (← canonicalActionFields [] fields))
  | .arr items => do
    let items ← canonicalActionItems key items
    if actionSetListKeys.contains (key.getD "") then .ok (.arr (← uniqueItems env items))
    else .ok (.arr items)
  | value => .ok value

def canonicalActionItems (key : Option String) : List Json → Except String (List Json)
  | [] => .ok []
  | item::rest => do
    let item ← canonicalActionValue key item
    .ok (item :: (← canonicalActionItems key rest))

def canonicalActionFields (done : Json.Object) : List (String × Json) → Except String Json.Object
  | [] => .ok done
  | (name,value)::rest => do
    let name := normalizeText env name
    let value ← canonicalActionValue (some name) value
    canonicalActionFields (Json.set done name value) rest

end

structure Intent where
  operation : String
  targetIds : List String
  expectedTokens : List (String × String)
  preconditions : Json
  payload : Json

def actionIntentToken (intent : Intent) : Except String String := do
  stableHash env (← canonicalActionValue env none (.obj [("schema_version",.int 1),
    ("operation",.str intent.operation),
    ("target_ids",.arr (intent.targetIds.map .str)),
    ("expected_tokens",.obj (intent.expectedTokens.map fun (key,value) => (key,.str value))),
    ("preconditions",intent.preconditions),("payload",intent.payload)]))

end McpMemory.Memory
